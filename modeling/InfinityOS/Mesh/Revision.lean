import InfinityOS.Mesh.Store
import InfinityOS.Transition.Reach

/-!
# Writers on the revisions of nodes

`patch` and `patch_with_revision` take their locks one after the other: to read the
revision, to advance it, to store the patch. Here any number of writers make such calls and
are interleaved at every lock section. The history lists the revisions handed to patches,
the oldest first; the store never looks at it.
-/

namespace InfinityOS

namespace Mesh

open MeshArtifactStore

/-! ## The advance of a revision -/

theorem toNat_saturatingAdd_one {a : UInt64} (h : a.toNat + 1 < 2 ^ 64) :
    (saturatingAdd a 1).toNat = a.toNat + 1 := by
  have hone : (1 : UInt64).toNat = 1 := rfl
  rw [saturatingAdd, if_pos (by rwa [hone]), UInt64.toNat_add, hone, Nat.mod_eq_of_lt h]

theorem revision_stateOr (now : UInt64) (n : Uuid) (s : MeshArtifactStore) :
    (s.stateOr now n).revision = s.currentRevision n := by
  unfold stateOr currentRevision
  cases s.nodeStates[n]? with
  | none => rfl
  | some state => rfl

theorem currentRevision_insert (s : MeshArtifactStore) (n : Uuid) (state : MeshNodeState)
    (m : Uuid) :
    ({ s with nodeStates := s.nodeStates.insert n state } : MeshArtifactStore).currentRevision m =
      if m = n then state.revision else s.currentRevision m := by
  unfold currentRevision
  rw [Maps.getElem?_insert_ite]
  split
  · rfl
  · rfl

/-- A conflict is rejected and changes no revision; otherwise the node's revision goes one
up. -/
theorem advanceRevision_cases (clock : Clock) (n : Uuid) (expected : UInt64)
    (strategy : ConflictStrategy) (patchId : Option ArtifactId) (s : MeshArtifactStore) :
    (strategy = .reject ∧ s.currentRevision n ≠ expected ∧
        ∃ t, s.advanceRevision clock n expected strategy patchId =
            (.error (.concurrentEdit n expected (s.currentRevision n)), t) ∧
          t.patches = s.patches ∧ ∀ m, t.currentRevision m = s.currentRevision m) ∨
      ((strategy = .reject → s.currentRevision n = expected) ∧
        ∃ t, s.advanceRevision clock n expected strategy patchId =
            (.ok (s.currentRevision n, saturatingAdd (s.currentRevision n) 1,
              s.currentRevision n != expected), t) ∧
          t.patches = s.patches ∧
          ∀ m, t.currentRevision m =
            if m = n then saturatingAdd (s.currentRevision n) 1 else s.currentRevision m) := by
  simp only [advanceRevision, revision_stateOr]
  by_cases hconflict : (s.currentRevision n != expected) = true ∧ strategy = .reject
  · left
    rw [if_pos hconflict]
    refine ⟨hconflict.2, by simpa using hconflict.1, _, rfl, rfl, fun m => ?_⟩
    rw [currentRevision_insert, revision_stateOr]
    split
    · next hm => rw [hm]
    · rfl
  · right
    rw [if_neg hconflict]
    refine ⟨fun hreject => ?_, _, rfl, rfl, fun m => currentRevision_insert s n _ m⟩
    by_contra hne
    exact hconflict ⟨by simpa using hne, hreject⟩

/-! ## Writers -/

/-- The arguments of `patch`. -/
structure PatchCall where
  nodeId : Uuid
  before : Json
  after : Json
  ops : List PatchOp
  taskId : TaskId
  dimensionId : DimensionId

def PatchCall.patch (call : PatchCall) (artifactId : ArtifactId) (now : UInt64)
    (baseRevision newRevision : UInt64) (conflict : Bool) : DiffPatch :=
  { artifactId, dimensionId := call.dimensionId, taskId := call.taskId, nodeId := call.nodeId,
    provenance := nodeProvenance call.taskId call.nodeId, createdAtMs := now,
    baseRevision, newRevision, conflict,
    before := call.before, after := call.after, ops := call.ops }

def PatchRequest.call (request : PatchRequest) : PatchCall :=
  { nodeId := request.nodeId, before := request.before, after := request.after,
    ops := request.ops, taskId := request.taskId, dimensionId := request.dimensionId }

/-- Where a writer stands between two lock sections. -/
inductive Phase where
  | idle
  /-- in `patch`, before the revision is read -/
  | patching (artifactId : ArtifactId) (call : PatchCall)
  /-- in `patch`, with the revision read, before it is advanced -/
  | read (artifactId : ArtifactId) (call : PatchCall) (expected : UInt64)
  /-- in `patch`, after the advance failed -/
  | failed (artifactId : ArtifactId) (call : PatchCall)
  /-- in `patch_with_revision`, before the revision is advanced -/
  | requesting (artifactId : ArtifactId) (request : PatchRequest)
  /-- in `store_patch` -/
  | storing (patch : DiffPatch)

/-- Revisions handed to a patch. -/
structure Advance where
  artifactId : ArtifactId
  nodeId : Uuid
  expectedRevision : UInt64
  strategy : ConflictStrategy
  baseRevision : UInt64
  newRevision : UInt64
  conflict : Bool
  deriving DecidableEq

/-- The revisions of an advance, against those of the store before it. -/
structure Advance.Fits (a : Advance) (s : MeshArtifactStore) : Prop where
  base : a.baseRevision = s.currentRevision a.nodeId
  new : a.newRevision = saturatingAdd (s.currentRevision a.nodeId) 1
  conflict : a.conflict = (a.baseRevision != a.expectedRevision)
  reject : a.strategy = .reject → a.expectedRevision = a.baseRevision

/-- A store with its writers. -/
structure Concurrent (ω : Type) where
  store : MeshArtifactStore
  phase : ω → Phase
  history : List Advance

inductive Action where
  | patch (artifactId : ArtifactId) (call : PatchCall)
  | patchWithRevision (artifactId : ArtifactId) (request : PatchRequest)
  /-- the next lock section of the call -/
  | proceed (clock : Clock)

namespace Concurrent

variable {ω : Type} [DecidableEq ω]

def new (start : UInt64) : Concurrent ω where
  store := .new start
  phase := fun _ => .idle
  history := []

/-- The writer is in `phase`, the rest as it is. -/
def enter (s : Concurrent ω) (w : ω) (phase : Phase) : Concurrent ω :=
  { s with phase := Function.update s.phase w phase }

/-- A section that hands out revisions: the writer goes on with the patch that has them. -/
def handOut (s : Concurrent ω) (w : ω) (store : MeshArtifactStore) (call : PatchCall)
    (now : UInt64) (a : Advance) : Concurrent ω where
  store := store
  phase := Function.update s.phase w
    (.storing (call.patch a.artifactId now a.baseRevision a.newRevision a.conflict))
  history := s.history ++ [a]

/-- One section of the writer `w`; `none` where it has none to run. -/
def proceed (s : Concurrent ω) (w : ω) (clock : Clock) : Option (Concurrent ω) :=
  match s.phase w with
  | .idle => none
  | .patching artifactId call =>
      some (s.enter w (.read artifactId call (s.store.currentRevision call.nodeId)))
  | .read artifactId call expected =>
      match s.store.advanceRevision clock call.nodeId expected .lastWriteWins (some artifactId) with
      | (.ok (baseRevision, newRevision, conflict), store) =>
          some (s.handOut w store call (clock 2)
            { artifactId, nodeId := call.nodeId, expectedRevision := expected,
              strategy := .lastWriteWins, baseRevision, newRevision, conflict })
      | (.error _, store) =>
          some ({ s with store := store }.enter w (.failed artifactId call))
  | .failed artifactId call =>
      let current := s.store.currentRevision call.nodeId
      some (s.handOut w s.store call (clock 2)
        { artifactId, nodeId := call.nodeId, expectedRevision := current,
          strategy := .lastWriteWins, baseRevision := current,
          newRevision := saturatingAdd current 1, conflict := true })
  | .requesting artifactId request =>
      match s.store.advanceRevision clock request.nodeId request.expectedRevision
        request.strategy (some artifactId) with
      | (.ok (baseRevision, newRevision, conflict), store) =>
          some (s.handOut w store request.call (clock 2)
            { artifactId, nodeId := request.nodeId,
              expectedRevision := request.expectedRevision, strategy := request.strategy,
              baseRevision, newRevision, conflict })
      | (.error _, store) => some ({ s with store := store }.enter w .idle)
  | .storing patch => some ({ s with store := s.store.storePatch patch }.enter w .idle)

def next (s : Concurrent ω) (l : ω × Action) : Option (Concurrent ω) :=
  match l.2 with
  | .patch artifactId call =>
      match s.phase l.1 with
      | .idle => some (s.enter l.1 (.patching artifactId call))
      | _ => none
  | .patchWithRevision artifactId request =>
      match s.phase l.1 with
      | .idle => some (s.enter l.1 (.requesting artifactId request))
      | _ => none
  | .proceed clock => s.proceed l.1 clock

/-- The states of all interleavings. -/
def Reached (start : UInt64) (s : Concurrent ω) : Prop :=
  Transition.Reach (fun s l t => next s l = some t) (fun _ _ => True) (new start) s

/-! ## One writer alone -/

theorem follow_patch (s : Concurrent ω) (w : ω) (hidle : s.phase w = .idle) (clock : Clock)
    (artifactId : ArtifactId) (call : PatchCall) :
    (Transition.follow next s [(w, .patch artifactId call), (w, .proceed clock), (w, .proceed clock),
      (w, .proceed clock)]).store =
      (s.store.patch clock artifactId call.nodeId call.before call.after call.ops call.taskId
        call.dimensionId).2 := by
  simp only [Transition.follow, next, hidle, proceed, enter, handOut, MeshArtifactStore.patch,
    Function.update_self, Option.getD_some]
  rcases advanceRevision_cases clock call.nodeId (s.store.currentRevision call.nodeId)
    .lastWriteWins (some artifactId) s.store with ⟨hreject, -⟩ | ⟨-, t, ht, -⟩
  · exact absurd hreject (by simp)
  · simp only [ht, Option.getD_some, Function.update_self]
    rfl

theorem follow_patchWithRevision (s : Concurrent ω) (w : ω) (hidle : s.phase w = .idle)
    (clock : Clock) (artifactId : ArtifactId) (request : PatchRequest) :
    (Transition.follow next s [(w, .patchWithRevision artifactId request), (w, .proceed clock),
      (w, .proceed clock)]).store =
      (s.store.patchWithRevision clock artifactId request).2 := by
  simp only [Transition.follow, next, hidle, proceed, enter, handOut, MeshArtifactStore.patchWithRevision,
    Function.update_self, Option.getD_some]
  rcases advanceRevision_cases clock request.nodeId request.expectedRevision request.strategy
    (some artifactId) s.store with ⟨-, -, t, ht, -⟩ | ⟨-, t, ht, -⟩
  · simp [ht]
  · simp only [ht, Option.getD_some, Function.update_self]
    rfl

/-! ## What a label does -/

/-- Only the writers of `patch` that an advance has failed are here. -/
def NoneFailed (s : Concurrent ω) : Prop :=
  ∀ w artifactId call, s.phase w ≠ .failed artifactId call

/-- What the next section of a writer does. -/
inductive Effect (s : Concurrent ω) (w : ω) : Concurrent ω → Prop where
  | moved {phase : Phase} {store : MeshArtifactStore}
      (hbefore : ∀ p, s.phase w ≠ .storing p) (hphase : ∀ p, phase ≠ .storing p)
      (hfailed : ∀ artifactId call, phase ≠ .failed artifactId call)
      (hpatches : store.patches = s.store.patches)
      (hrevision : ∀ m, store.currentRevision m = s.store.currentRevision m) :
      Effect s w ({ s with store := store }.enter w phase)
  | advanced {a : Advance} {call : PatchCall} {store : MeshArtifactStore} (now : UInt64)
      (hbefore : ∀ p, s.phase w ≠ .storing p) (hcall : call.nodeId = a.nodeId)
      (hfits : a.Fits s.store) (hpatches : store.patches = s.store.patches)
      (hrevision : ∀ m, store.currentRevision m =
        if m = a.nodeId then a.newRevision else s.store.currentRevision m) :
      Effect s w (s.handOut w store call now a)
  | stored {p : DiffPatch} (hp : s.phase w = .storing p) :
      Effect s w ({ s with store := s.store.storePatch p }.enter w .idle)

theorem next_effect {s t : Concurrent ω} {l : ω × Action} (hfailed : s.NoneFailed)
    (h : s.next l = some t) : Effect s l.1 t := by
  obtain ⟨w, action⟩ := l
  cases action with
  | patch artifactId call =>
      cases hphase : s.phase w with
      | idle =>
          simp only [next, hphase, Option.some.injEq] at h
          subst h
          exact Effect.moved (s := s) (by simp [hphase]) (by simp) (by simp) rfl fun m => rfl
      | _ => simp [next, hphase] at h
  | patchWithRevision artifactId request =>
      cases hphase : s.phase w with
      | idle =>
          simp only [next, hphase, Option.some.injEq] at h
          subst h
          exact Effect.moved (s := s) (by simp [hphase]) (by simp) (by simp) rfl fun m => rfl
      | _ => simp [next, hphase] at h
  | proceed clock =>
      simp only [next] at h
      cases hphase : s.phase w with
      | idle => simp [proceed, hphase] at h
      | patching artifactId call =>
          simp only [proceed, hphase, Option.some.injEq] at h
          subst h
          exact Effect.moved (s := s) (by simp [hphase]) (by simp) (by simp) rfl fun m => rfl
      | read artifactId call expected =>
          rcases advanceRevision_cases clock call.nodeId expected .lastWriteWins
            (some artifactId) s.store with ⟨hreject, -⟩ | ⟨-, u, hu, hpatches, hrevision⟩
          · exact absurd hreject (by simp)
          · simp only [proceed, hphase, hu, Option.some.injEq] at h
            subst h
            exact Effect.advanced (clock 2) (by simp [hphase]) rfl ⟨rfl, rfl, rfl, by simp⟩
              hpatches hrevision
      | failed artifactId call => exact absurd hphase (hfailed w artifactId call)
      | requesting artifactId request =>
          rcases advanceRevision_cases clock request.nodeId request.expectedRevision
            request.strategy (some artifactId) s.store with
            ⟨-, -, u, hu, hpatches, hrevision⟩ | ⟨hreject, u, hu, hpatches, hrevision⟩
          · simp only [proceed, hphase, hu, Option.some.injEq] at h
            subst h
            exact Effect.moved (by simp [hphase]) (by simp) (by simp) hpatches hrevision
          · simp only [proceed, hphase, hu, Option.some.injEq] at h
            subst h
            exact Effect.advanced (clock 2) (by simp [hphase]) rfl
              ⟨rfl, rfl, rfl, fun hr => (hreject hr).symm⟩ hpatches hrevision
      | storing p =>
          simp only [proceed, hphase, Option.some.injEq] at h
          subst h
          exact Effect.stored hphase

/-! ## The invariant -/

def ofNode (n : Uuid) (history : List Advance) : List Advance :=
  history.filter fun a => a.nodeId = n

/-- The patch carries the revisions of the advance. -/
def Carries (p : DiffPatch) (a : Advance) : Prop :=
  p.artifactId = a.artifactId ∧ p.nodeId = a.nodeId ∧ p.baseRevision = a.baseRevision ∧
    p.newRevision = a.newRevision ∧ p.conflict = a.conflict

/-- The revisions of the advances count up from 0, and the node is at the last of them. -/
def Gapless (s : Concurrent ω) : Prop :=
  ∀ n, ((ofNode n s.history).map fun a => (a.baseRevision.toNat, a.newRevision.toNat)) =
      (List.range (ofNode n s.history).length).map (fun i => (i, i + 1)) ∧
    (s.store.currentRevision n).toNat = (ofNode n s.history).length

structure Consistent (s : Concurrent ω) : Prop where
  noneFailed : s.NoneFailed
  gapless : s.history.length < 2 ^ 64 → s.Gapless
  agreed : ∀ a ∈ s.history, (a.strategy = .reject → a.expectedRevision = a.baseRevision) ∧
    a.conflict = (a.baseRevision != a.expectedRevision)
  pending : ∀ w p, s.phase w = .storing p → ∃ a ∈ s.history, Carries p a
  kept : (s.history.map Advance.artifactId).Nodup → ∀ a ∈ s.history,
    (∃ p, s.store.patches[a.artifactId]? = some p ∧ Carries p a) ∨
      ∃ w p, s.phase w = .storing p ∧ Carries p a

omit [DecidableEq ω] in
theorem consistent_new (start : UInt64) : Consistent (new start : Concurrent ω) where
  noneFailed := by simp [NoneFailed, new]
  gapless := fun _ n => ⟨rfl, rfl⟩
  agreed := by simp [new]
  pending := by simp [new]
  kept := by simp [new]

omit [DecidableEq ω] in
theorem Gapless.advance {s : Concurrent ω} (h : s.Gapless) (hlength : s.history.length + 1 < 2 ^ 64)
    {a : Advance} (hfits : a.Fits s.store) {t : Concurrent ω} (hhistory : t.history = s.history ++ [a])
    (hrevision : ∀ m, t.store.currentRevision m =
      if m = a.nodeId then a.newRevision else s.store.currentRevision m) : t.Gapless := by
  intro n
  obtain ⟨hchain, hcurrent⟩ := h n
  rw [hhistory, hrevision, ofNode, List.filter_append]
  by_cases hn : n = a.nodeId
  · subst hn
    have hlen : (ofNode a.nodeId s.history).length ≤ s.history.length := List.length_filter_le _ _
    have hnew : a.newRevision.toNat = (ofNode a.nodeId s.history).length + 1 := by
      rw [hfits.new, toNat_saturatingAdd_one (by omega), hcurrent]
    have hbase : a.baseRevision.toNat = (ofNode a.nodeId s.history).length := by
      rw [hfits.base, hcurrent]
    unfold ofNode at hchain hnew hbase
    simp [hchain, hnew, hbase, List.range_succ]
  · rw [if_neg hn]
    unfold ofNode at hchain hcurrent
    simpa [Ne.symm hn] using ⟨hchain, hcurrent⟩

/-- The invariant, where a writer moves on without touching a patch or a revision. -/
theorem Consistent.moved {s : Concurrent ω} (h : Consistent s) {w : ω} {phase : Phase}
    {store : MeshArtifactStore} (hbefore : ∀ p, s.phase w ≠ .storing p)
    (hphase : ∀ p, phase ≠ .storing p) (hfailed : ∀ artifactId call, phase ≠ .failed artifactId call)
    (hpatches : store.patches = s.store.patches)
    (hrevision : ∀ m, store.currentRevision m = s.store.currentRevision m) :
    Consistent ({ s with store := store }.enter w phase) where
  noneFailed := by
    intro w' artifactId call
    by_cases hw : w' = w
    · subst hw
      simpa [enter] using hfailed artifactId call
    · simpa [enter, hw] using h.noneFailed w' artifactId call
  gapless := by
    intro hlength n
    obtain ⟨hchain, hcurrent⟩ := h.gapless hlength n
    exact ⟨hchain, (congrArg UInt64.toNat (hrevision n)).trans hcurrent⟩
  agreed := h.agreed
  pending := by
    intro w' p hp
    by_cases hw : w' = w
    · subst hw
      exact absurd (by simpa [enter] using hp) (hphase p)
    · exact h.pending w' p (by simpa [enter, hw] using hp)
  kept := by
    intro hnodup a ha
    rcases h.kept hnodup a ha with ⟨p, hp, hcarries⟩ | ⟨w', p, hp, hcarries⟩
    · left
      exact ⟨p, (congrArg (·[a.artifactId]?) hpatches).trans hp, hcarries⟩
    · right
      have hw : w' ≠ w := by
        rintro rfl
        exact hbefore p hp
      exact ⟨w', p, by simpa [enter, hw] using hp, hcarries⟩

/-- The invariant, where revisions are handed out. -/
theorem Consistent.advanced {s : Concurrent ω} (h : Consistent s) {w : ω} {a : Advance}
    {call : PatchCall} {store : MeshArtifactStore} (now : UInt64)
    (hbefore : ∀ p, s.phase w ≠ .storing p) (hcall : call.nodeId = a.nodeId)
    (hfits : a.Fits s.store) (hpatches : store.patches = s.store.patches)
    (hrevision : ∀ m, store.currentRevision m =
      if m = a.nodeId then a.newRevision else s.store.currentRevision m) :
    Consistent (s.handOut w store call now a) where
  noneFailed := by
    intro w' artifactId call'
    by_cases hw : w' = w
    · subst hw
      simp [handOut]
    · simpa [handOut, hw] using h.noneFailed w' artifactId call'
  gapless := by
    intro hlength
    simp only [handOut, List.length_append, List.length_singleton] at hlength
    exact (h.gapless (Nat.lt_of_succ_lt hlength)).advance hlength hfits rfl hrevision
  agreed := by
    intro b hb
    rcases List.mem_append.mp hb with hb | hb
    · exact h.agreed b hb
    · rw [List.mem_singleton.mp hb]
      exact ⟨hfits.reject, hfits.conflict⟩
  pending := by
    intro w' p hp
    by_cases hw : w' = w
    · subst hw
      simp only [handOut, Function.update_self, Phase.storing.injEq] at hp
      subst hp
      exact ⟨a, by simp [handOut], rfl, hcall, rfl, rfl, rfl⟩
    · obtain ⟨b, hb, hcarries⟩ := h.pending w' p (by simpa [handOut, hw] using hp)
      exact ⟨b, List.mem_append_left _ hb, hcarries⟩
  kept := by
    intro hnodup b hb
    simp only [handOut, List.map_append] at hnodup
    rcases List.mem_append.mp hb with hb | hb
    · rcases h.kept (List.nodup_append.mp hnodup).1 b hb with
        ⟨p, hp, hcarries⟩ | ⟨w', p, hp, hcarries⟩
      · left
        exact ⟨p, (congrArg (·[b.artifactId]?) hpatches).trans hp, hcarries⟩
      · right
        have hw : w' ≠ w := by
          rintro rfl
          exact hbefore p hp
        exact ⟨w', p, by simpa [handOut, hw] using hp, hcarries⟩
    · right
      rw [List.mem_singleton.mp hb]
      exact ⟨w, call.patch a.artifactId now a.baseRevision a.newRevision a.conflict,
        by simp [handOut], rfl, hcall, rfl, rfl, rfl⟩

/-- The invariant, where a patch is stored. A patch with the same id, of another advance,
would be lost here; distinct ids exclude it. -/
theorem Consistent.stored {s : Concurrent ω} (h : Consistent s) {w : ω} {p : DiffPatch}
    (hp : s.phase w = .storing p) :
    Consistent ({ s with store := s.store.storePatch p }.enter w .idle) where
  noneFailed := by
    intro w' artifactId call
    by_cases hw : w' = w
    · subst hw
      simp [enter]
    · simpa [enter, hw] using h.noneFailed w' artifactId call
  gapless := h.gapless
  agreed := h.agreed
  pending := by
    intro w' q hq
    by_cases hw : w' = w
    · subst hw
      simp [enter] at hq
    · exact h.pending w' q (by simpa [enter, hw] using hq)
  kept := by
    intro hnodup a ha
    simp only [enter, storePatch, Maps.getElem?_insert_ite]
    rcases h.kept hnodup a ha with ⟨q, hq, hcarries⟩ | ⟨w', q, hq, hcarries⟩
    · left
      by_cases hid : a.artifactId = p.artifactId
      · obtain ⟨b, hb, hb'⟩ := h.pending w p hp
        have hab : b = a := List.inj_on_of_nodup_map hnodup hb ha (hb'.1.symm.trans hid.symm)
        exact ⟨p, if_pos hid, hab ▸ hb'⟩
      · exact ⟨q, by rw [if_neg hid, hq], hcarries⟩
    · by_cases hw : w' = w
      · subst hw
        rw [hp, Phase.storing.injEq] at hq
        subst hq
        left
        exact ⟨p, if_pos hcarries.1.symm, hcarries⟩
      · right
        exact ⟨w', q, by simpa [hw] using hq, hcarries⟩

theorem Consistent.next {s t : Concurrent ω} {l : ω × Action} (h : Consistent s)
    (hnext : s.next l = some t) : Consistent t := by
  cases next_effect h.noneFailed hnext with
  | moved hbefore hphase hfailed hpatches hrevision =>
      exact h.moved hbefore hphase hfailed hpatches hrevision
  | advanced now hbefore hcall hfits hpatches hrevision =>
      exact h.advanced now hbefore hcall hfits hpatches hrevision
  | stored hp => exact h.stored hp

theorem Reached.consistent {start : UInt64} {s : Concurrent ω} (h : Reached start s) :
    Consistent s :=
  Transition.Reach.invariant h Consistent (consistent_new start)
    fun _ _ _ hs _ hnext => hs.next hnext

/-! ## No update is lost -/

structure NothingLost (s : Concurrent ω) : Prop where
  /-- the patches of each node have the revisions 1, 2, 3 and so on, each on the base of the
  one before, and the node is at the last of them -/
  gapless : s.Gapless
  /-- the next patch is based on the revision of its node -/
  based : ∀ l t a, s.next l = some t → t.history = s.history ++ [a] →
    a.baseRevision = s.store.currentRevision a.nodeId
  /-- a patch that rejects conflicts expected its base; any other says whether it did -/
  agreed : ∀ a ∈ s.history, (a.strategy = .reject → a.expectedRevision = a.baseRevision) ∧
    a.conflict = (a.baseRevision != a.expectedRevision)
  /-- as long as no id is drawn twice, each patch is stored or about to be -/
  kept : (s.history.map Advance.artifactId).Nodup → ∀ a ∈ s.history,
    (∃ p, s.store.patches[a.artifactId]? = some p ∧ Carries p a) ∨
      ∃ w p, s.phase w = .storing p ∧ Carries p a

theorem Consistent.based {s t : Concurrent ω} {l : ω × Action} (h : Consistent s) {a : Advance}
    (hnext : s.next l = some t) (hhistory : t.history = s.history ++ [a]) :
    a.baseRevision = s.store.currentRevision a.nodeId := by
  cases next_effect h.noneFailed hnext with
  | moved => exact absurd (List.self_eq_append_right.mp hhistory) (by simp)
  | advanced now hbefore hcall hfits hpatches hrevision =>
      have hsame := List.append_cancel_left hhistory
      rw [← List.singleton_inj.mp hsame]
      exact hfits.base
  | stored hp => exact absurd (List.self_eq_append_right.mp hhistory) (by simp)

/-- In every interleaving of fewer than `2 ^ 64` patches no update of a node is lost. -/
theorem revisions_gapless {start : UInt64} {s : Concurrent ω} (h : Reached start s)
    (hlength : s.history.length < 2 ^ 64) : s.NothingLost where
  gapless := h.consistent.gapless hlength
  based := fun _ _ _ hnext hhistory => h.consistent.based hnext hhistory
  agreed := h.consistent.agreed
  kept := h.consistent.kept

/-- Two writers on node 7: one reads the revision, the other gets in between, and its next
request is rejected. -/
def sampleLabels : List (Bool × Action) :=
  let call : PatchCall :=
    { nodeId := 7, before := .null, after := .null, ops := [], taskId := 3, dimensionId := 2 }
  let request (expectedRevision : UInt64) : PatchRequest :=
    { nodeId := 7, before := .null, after := .null, ops := [], taskId := 3, dimensionId := 2,
      expectedRevision, strategy := .reject }
  let clock : Clock := fun _ => 0
  [(false, .patch 1 call), (false, .proceed clock),
    (true, .patchWithRevision 2 (request 0)), (true, .proceed clock), (true, .proceed clock),
    (false, .proceed clock), (false, .proceed clock),
    (true, .patchWithRevision 3 (request 1)), (true, .proceed clock)]

example : ((Transition.follow next (new 0) sampleLabels).history.map fun a =>
    (a.baseRevision, a.newRevision, a.conflict)) = [(0, 1, false), (1, 2, true)] := by
  decide +kernel

theorem revisions_gapless_sample : (Transition.follow next (new 0) sampleLabels).NothingLost :=
  revisions_gapless (Transition.reach_follow .refl sampleLabels) (by decide +kernel)

end Concurrent

end Mesh

end InfinityOS
