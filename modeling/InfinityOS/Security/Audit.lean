import InfinityOS.Graph.Types
import InfinityOS.Text.Quoted
import InfinityOS.Transition.Run

/-!
# The audit log

Records of privileged actions, each with a hash over its fields and the hash of the
record before it. The hash function is a parameter, and so is the payload, a value of
`serde_json`, with the text in which it is displayed. The entries that `record` also
sends to the shared action log are left out.
-/

namespace InfinityOS

namespace Security

inductive AuditError where
  | missingCapabilityContext
  | storage (message : String)
  deriving DecidableEq

inductive PrivilegedActionKind where
  | readSecret
  | deploy
  | capabilityChange
  | adminChange
  | marketplacePublish
  deriving DecidableEq

namespace PrivilegedActionKind

/-- `required_capability`, as the bits of `Capabilities`. -/
def requiredCapability : PrivilegedActionKind → UInt64
  | readSecret => (1 : UInt64) <<< 33
  | deploy => (1 : UInt64) <<< 22
  | capabilityChange => (1 : UInt64) <<< 63
  | adminChange => (1 : UInt64) <<< 63
  | marketplacePublish => (1 : UInt64) <<< 34

/-- The derived debug form. -/
def debug : PrivilegedActionKind → String
  | readSecret => "ReadSecret"
  | deploy => "Deploy"
  | capabilityChange => "CapabilityChange"
  | adminChange => "AdminChange"
  | marketplacePublish => "MarketplacePublish"

end PrivilegedActionKind

def Capabilities.contains (caps required : UInt64) : Bool :=
  caps &&& required == required

inductive Actor where
  | user (name : String)
  | agent (name : String)
  | system
  | kernel
  deriving DecidableEq

def actorToString : Actor → String
  | .user name => "user:" ++ name
  | .agent name => "agent:" ++ name
  | .system => "system"
  | .kernel => "kernel"

structure AuditRecord (π : Type) where
  recordId : Uuid
  kind : PrivilegedActionKind
  actor : String
  dimensionId : DimensionId
  taskId : TaskId
  capabilities : UInt64
  payload : π
  occurredAtMs : UInt64
  prevHash : String
  hash : String
  deriving DecidableEq

section Audit

variable {π : Type} (hash : String → String) (display : π → String)

/-- The input of the hash in `compute_hash`. -/
def hashInput (recordId : Uuid) (kind : PrivilegedActionKind) (actor : String)
    (dimensionId : DimensionId) (taskId : TaskId) (occurredAtMs : UInt64) (prevHash : String)
    (payload : π) : String :=
  recordId.display ++ "|" ++ kind.debug ++ "|" ++ actor ++ "|" ++ dimensionId.display ++ "|" ++
    taskId.display ++ "|" ++ occurredAtMs.toNat.repr ++ "|" ++ prevHash ++ "|" ++ display payload

def computeHash (recordId : Uuid) (kind : PrivilegedActionKind) (actor : String)
    (dimensionId : DimensionId) (taskId : TaskId) (occurredAtMs : UInt64) (prevHash : String)
    (payload : π) : String :=
  hash (hashInput display recordId kind actor dimensionId taskId occurredAtMs prevHash payload)

abbrev PrivilegedAuditLog (π : Type) := List (AuditRecord π)

/-- A call of `record` with the id and the time that it draws. -/
structure RecordCall (π : Type) where
  recordId : Uuid
  now : UInt64
  kind : PrivilegedActionKind
  actor : Actor
  dim : DimensionId
  task : TaskId
  caps : UInt64
  payload : π

namespace PrivilegedAuditLog

def record (log : PrivilegedAuditLog π) (call : RecordCall π) :
    Except AuditError Unit × PrivilegedAuditLog π :=
  if Capabilities.contains call.caps call.kind.requiredCapability = false then
    (.error .missingCapabilityContext, log)
  else
    let prevHash := (log.getLast?.map AuditRecord.hash).getD ""
    let actor := actorToString call.actor
    (.ok (), log ++ [{
      recordId := call.recordId
      kind := call.kind
      actor := actor
      dimensionId := call.dim
      taskId := call.task
      capabilities := call.caps
      payload := call.payload
      occurredAtMs := call.now
      prevHash := prevHash
      hash := computeHash hash display call.recordId call.kind actor call.dim call.task call.now
        prevHash call.payload }])

/-- The loop of `verify_chain` from record `i` on, behind a record with the hash `prev`. -/
def verifyFrom (prev : String) (i : ℕ) : List (AuditRecord π) → Except AuditError Unit
  | [] => .ok ()
  | record :: rest =>
      let recomputed := computeHash hash display record.recordId record.kind record.actor
        record.dimensionId record.taskId record.occurredAtMs record.prevHash record.payload
      if recomputed ≠ record.hash then
        .error (.storage ("record " ++ i.repr ++ " hash mismatch: stored '" ++ record.hash ++
          "', recomputed '" ++ recomputed ++ "'"))
      else if record.prevHash ≠ prev then
        .error (.storage ("hash chain broken at record index " ++ i.repr ++
          ": expected prev_hash '" ++ prev ++ "', got '" ++ record.prevHash ++ "'"))
      else
        verifyFrom record.hash (i + 1) rest

def verifyChain (log : PrivilegedAuditLog π) : Except AuditError Unit :=
  verifyFrom hash display "" 0 log

/-- The log after calls of `record`. -/
def recorded (calls : List (RecordCall π)) : PrivilegedAuditLog π :=
  Transition.final (record hash display) [] calls

end PrivilegedAuditLog

end Audit

/-! ## Displayed fields -/

theorem digitChar_inj {a b : ℕ} (ha : a < 16) (hb : b < 16)
    (h : Nat.digitChar a = Nat.digitChar b) : a = b := by
  have hall : ∀ a < 16, ∀ b < 16, Nat.digitChar a = Nat.digitChar b → a = b := by
    decide
  exact hall a ha b hb h

theorem mod_pow_eq_of_digits {a b n : ℕ} (h : ∀ i < n, a / 16 ^ i % 16 = b / 16 ^ i % 16) :
    a % 16 ^ n = b % 16 ^ n := by
  induction n with
  | zero => rw [pow_zero, Nat.mod_one, Nat.mod_one]
  | succ n ih =>
      rw [Nat.mod_pow_succ, Nat.mod_pow_succ, h n (Nat.lt_succ_self n),
        ih fun i hi => h i (Nat.lt_succ_of_lt hi)]

/-- The hexadecimal digits of a UUID, the highest first. -/
def uuidDigits (u : Uuid) : List Char :=
  (List.range 32).map fun i => Nat.digitChar (u.toNat / 16 ^ (31 - i) % 16)

theorem uuidDigits_injective : Function.Injective uuidDigits := by
  intro u v h
  apply BitVec.eq_of_toNat_eq
  have hdigits : ∀ i < 32, u.toNat / 16 ^ i % 16 = v.toNat / 16 ^ i % 16 := by
    intro i hi
    have hmem : 31 - i ∈ List.range 32 := List.mem_range.mpr (by omega)
    have heq := List.map_inj_left.mp h (31 - i) hmem
    rw [show 31 - (31 - i) = i by omega] at heq
    exact digitChar_inj (Nat.mod_lt _ (by decide)) (Nat.mod_lt _ (by decide)) heq
  have hmod := mod_pow_eq_of_digits hdigits
  have hpow : (16 : ℕ) ^ 32 = 2 ^ 128 := rfl
  rwa [hpow, Nat.mod_eq_of_lt u.isLt, Nat.mod_eq_of_lt v.isLt] at hmod

theorem notMem_uuidDigits {c : Char} (hc : ∀ d < 16, Nat.digitChar d ≠ c) (u : Uuid) :
    c ∉ uuidDigits u := by
  intro hmem
  obtain ⟨i, -, hi⟩ := List.mem_map.mp hmem
  exact hc _ (Nat.mod_lt _ (by decide)) hi

def uuidGroups (u : Uuid) : List (List Char) :=
  [(uuidDigits u).take 8, ((uuidDigits u).drop 8).take 4, ((uuidDigits u).drop 12).take 4,
    ((uuidDigits u).drop 16).take 4, (uuidDigits u).drop 20]

theorem toList_uuid_display (u : Uuid) : u.display.toList = ['-'].intercalate (uuidGroups u) := by
  rw [Uuid.display, String.toList_intercalate]
  simp only [List.map_cons, List.map_nil, String.toList_ofList]
  rfl

theorem mem_uuidDigits_of_group {u : Uuid} {group : List Char} (hgroup : group ∈ uuidGroups u)
    {c : Char} (hc : c ∈ group) : c ∈ uuidDigits u := by
  simp only [uuidGroups, List.mem_cons, List.not_mem_nil, or_false] at hgroup
  rcases hgroup with rfl | rfl | rfl | rfl | rfl
  · exact List.mem_of_mem_take hc
  · exact List.mem_of_mem_drop (List.mem_of_mem_take hc)
  · exact List.mem_of_mem_drop (List.mem_of_mem_take hc)
  · exact List.mem_of_mem_drop (List.mem_of_mem_take hc)
  · exact List.mem_of_mem_drop hc

theorem uuid_display_injective : Function.Injective Uuid.display := by
  intro u v h
  have hhyphen : ∀ w : Uuid, ∀ group ∈ uuidGroups w, '-' ∉ group := by
    intro w group hgroup hmem
    exact notMem_uuidDigits (by decide) w (mem_uuidDigits_of_group hgroup hmem)
  have hgroups : uuidGroups u = uuidGroups v := by
    have hsplit := congrArg (fun s : String => s.toList.splitOn '-') h
    simp only [toList_uuid_display] at hsplit
    rwa [List.splitOn_intercalate '-' (hhyphen u) (List.cons_ne_nil _ _),
      List.splitOn_intercalate '-' (hhyphen v) (List.cons_ne_nil _ _)] at hsplit
  have hflatten : ∀ w : Uuid, (uuidGroups w).flatten = uuidDigits w := by
    intro w
    have hdigits : uuidDigits w = (uuidGroups w).flatten := rfl
    exact hdigits.symm
  apply uuidDigits_injective
  rw [← hflatten, ← hflatten, hgroups]

theorem bar_notMem_uuid_display (u : Uuid) : '|' ∉ u.display.toList := by
  rw [toList_uuid_display]
  intro h
  cases Text.mem_intercalate h with
  | inl h => exact absurd h (by decide)
  | inr h =>
      obtain ⟨group, hgroup, hmem⟩ := h
      exact notMem_uuidDigits (by decide) u (mem_uuidDigits_of_group hgroup hmem)

theorem bar_notMem_repr (n : ℕ) : '|' ∉ n.repr.toList := by
  rw [Nat.toList_repr]
  intro h
  have hdigit := Nat.isDigit_of_mem_toDigits (by decide) (by decide) h
  exact absurd hdigit (by decide)

theorem debug_injective : Function.Injective PrivilegedActionKind.debug := by
  intro a b h
  cases a
  all_goals cases b
  all_goals first | rfl | exact absurd h (by decide)

theorem bar_notMem_debug (kind : PrivilegedActionKind) : '|' ∉ kind.debug.toList := by
  cases kind
  all_goals decide

/-! ## What the hash covers -/

section Cover

variable {π : Type} {hash : String → String} {display : π → String}

theorem toList_hashInput (display : π → String) (recordId : Uuid) (kind : PrivilegedActionKind)
    (actor : String) (dimensionId : DimensionId) (taskId : TaskId) (occurredAtMs : UInt64)
    (prevHash : String) (payload : π) :
    (hashInput display recordId kind actor dimensionId taskId occurredAtMs prevHash
      payload).toList =
      ((recordId.display.toList ++ '|' :: (kind.debug.toList ++ '|' :: (((actor.toList ++
        '|' :: dimensionId.display.toList) ++ '|' :: taskId.display.toList) ++
          '|' :: occurredAtMs.toNat.repr.toList))) ++ '|' :: prevHash.toList) ++
            '|' :: (display payload).toList := by
  have hbar : "|".toList = ['|'] := rfl
  simp only [hashInput, String.toList_append, hbar, List.append_assoc, List.cons_append,
    List.nil_append]

theorem hashInput_inj (hquoted : ∀ p, Text.Quoted '|' (display p).toList)
    (hdisplay : Function.Injective display) {a b : AuditRecord π}
    (hprev : a.prevHash = b.prevHash)
    (h : hashInput display a.recordId a.kind a.actor a.dimensionId a.taskId a.occurredAtMs
        a.prevHash a.payload =
      hashInput display b.recordId b.kind b.actor b.dimensionId b.taskId b.occurredAtMs
        b.prevHash b.payload) :
    { a with capabilities := b.capabilities, hash := b.hash } = b := by
  have hlist := congrArg String.toList h
  rw [toList_hashInput, toList_hashInput, hprev] at hlist
  obtain ⟨hfront, hpayload⟩ := Text.append_sep_inj_quoted (by decide) (by decide)
    (hquoted a.payload) (hquoted b.payload) hlist
  have hfields := List.append_cancel_right hfront
  obtain ⟨hid, hfields⟩ := Text.append_sep_inj_left (bar_notMem_uuid_display _)
    (bar_notMem_uuid_display _) hfields
  obtain ⟨hkind, hfields⟩ := Text.append_sep_inj_left (bar_notMem_debug _)
    (bar_notMem_debug _) hfields
  obtain ⟨hfields, htime⟩ := Text.append_sep_inj_right (bar_notMem_repr _)
    (bar_notMem_repr _) hfields
  obtain ⟨hfields, htask⟩ := Text.append_sep_inj_right (bar_notMem_uuid_display _)
    (bar_notMem_uuid_display _) hfields
  obtain ⟨hactor, hdim⟩ := Text.append_sep_inj_right (bar_notMem_uuid_display _)
    (bar_notMem_uuid_display _) hfields
  have hid := uuid_display_injective (String.toList_injective hid)
  have hkind := debug_injective (String.toList_injective hkind)
  have hactor := String.toList_injective hactor
  have hdim := uuid_display_injective (String.toList_injective hdim)
  have htask := uuid_display_injective (String.toList_injective htask)
  have htime := UInt64.toNat_inj.mp (Nat.repr_injective (String.toList_injective htime))
  have hpayload := hdisplay (String.toList_injective hpayload)
  cases a
  cases b
  simp only at hid hkind hactor hdim htask htime hpayload hprev
  simp only [hid, hkind, hactor, hdim, htask, htime, hpayload, hprev]

/-! ## The chain -/

variable (hash display) in
/-- The record carries the hash of its fields and of the record before it. -/
def Intact (prev : String) (record : AuditRecord π) : Prop :=
  computeHash hash display record.recordId record.kind record.actor record.dimensionId
      record.taskId record.occurredAtMs record.prevHash record.payload = record.hash ∧
    record.prevHash = prev

variable (hash display) in
def Chained : String → List (AuditRecord π) → Prop
  | _, [] => True
  | prev, record :: rest => Intact hash display prev record ∧ Chained record.hash rest

/-- The hash behind which the next record is appended. -/
def lastHash (prev : String) (log : List (AuditRecord π)) : String :=
  (log.getLast?.map AuditRecord.hash).getD prev

theorem lastHash_cons (prev : String) (record : AuditRecord π) (log : List (AuditRecord π)) :
    lastHash prev (record :: log) = lastHash record.hash log := by
  cases log with
  | nil => rfl
  | cons next log => rfl

open PrivilegedAuditLog

theorem verifyFrom_eq_ok_iff (prev : String) (i : ℕ) (log : List (AuditRecord π)) :
    verifyFrom hash display prev i log = .ok () ↔ Chained hash display prev log := by
  induction log generalizing prev i with
  | nil => exact ⟨fun _ => trivial, fun _ => rfl⟩
  | cons record rest ih =>
      rw [verifyFrom, Chained, Intact]
      split
      · next hhash =>
          constructor
          · intro h
            cases h
          · intro h
            exact absurd h.1.1 hhash
      · next hhash =>
          split
          · next hlink =>
              constructor
              · intro h
                cases h
              · intro h
                exact absurd h.1.2 hlink
          · next hlink =>
              rw [ih]
              constructor
              · intro h
                exact ⟨⟨not_not.mp hhash, not_not.mp hlink⟩, h⟩
              · intro h
                exact h.2

theorem Chained.append {prev : String} {log : List (AuditRecord π)} {record : AuditRecord π}
    (h : Chained hash display prev log)
    (hrecord : Intact hash display (lastHash prev log) record) :
    Chained hash display prev (log ++ [record]) := by
  induction log generalizing prev with
  | nil => exact ⟨hrecord, trivial⟩
  | cons first rest ih =>
      rw [lastHash_cons] at hrecord
      exact ⟨h.1, ih h.2 hrecord⟩

theorem Chained.record {log : PrivilegedAuditLog π} (h : Chained hash display "" log)
    (call : RecordCall π) : Chained hash display "" (record hash display log call).2 := by
  unfold PrivilegedAuditLog.record
  split
  · exact h
  · exact h.append ⟨rfl, rfl⟩

theorem chained_recorded (calls : List (RecordCall π)) :
    Chained hash display "" (recorded hash display calls) :=
  Transition.invariant_final_of_forall (Chained hash display "")
    (fun _ call h => h.record call) calls trivial

theorem Chained.set {prev : String} {log : List (AuditRecord π)} {i : ℕ}
    {record changed : AuditRecord π} (h : Chained hash display prev log)
    (hi : log[i]? = some record) (hhash : changed.hash = record.hash) :
    Chained hash display prev (log.set i changed) ↔
      Intact hash display record.prevHash changed := by
  induction log generalizing prev i with
  | nil => cases hi
  | cons first rest ih =>
      cases i with
      | zero =>
          cases hi
          rw [List.set_cons_zero, Chained, hhash, ← h.1.2]
          exact ⟨fun hset => hset.1, fun hintact => ⟨hintact, h.2⟩⟩
      | succ i =>
          rw [List.set_cons_succ, Chained]
          have hrest := ih h.2 hi
          exact ⟨fun hset => hrest.mp hset.2, fun hintact => ⟨h.1, hrest.mpr hintact⟩⟩

theorem Chained.intact {prev : String} {log : List (AuditRecord π)} {i : ℕ}
    {record : AuditRecord π} (h : Chained hash display prev log) (hi : log[i]? = some record) :
    Intact hash display record.prevHash record := by
  induction log generalizing prev i with
  | nil => cases hi
  | cons first rest ih =>
      cases i with
      | zero =>
          cases hi
          exact ⟨h.1.1, rfl⟩
      | succ i => exact ih h.2 hi

variable (hash display) in
/-- A recorded log is accepted, and after a change of one record that keeps its hash it is
rejected exactly when the change is not of the capabilities alone. -/
theorem verifyChain_tampered_iff (hhash : Function.Injective hash)
    (hdisplay : Function.Injective display)
    (hquoted : ∀ p, Text.Quoted '|' (display p).toList) (calls : List (RecordCall π)) :
    verifyChain hash display (recorded hash display calls) = .ok () ∧
      ∀ i record changed, (recorded hash display calls)[i]? = some record →
        changed.hash = record.hash →
          (verifyChain hash display ((recorded hash display calls).set i changed) ≠ .ok () ↔
            { changed with capabilities := record.capabilities } ≠ record) := by
  have hchained : Chained hash display "" (recorded hash display calls) := chained_recorded calls
  refine ⟨(verifyFrom_eq_ok_iff "" 0 _).mpr hchained, ?_⟩
  intro i record changed hi hsame
  have hintact := hchained.intact hi
  rw [verifyChain, ne_eq, verifyFrom_eq_ok_iff, hchained.set hi hsame, not_iff_not]
  constructor
  · intro hchanged
    have hinput := hchanged.1.trans (hsame.trans hintact.1.symm)
    have heq := hashInput_inj hquoted hdisplay hchanged.2 (hhash hinput)
    rw [← heq]
    cases changed
    simp only at hsame
    rw [hsame]
  · intro heq
    rw [← heq] at hintact ⊢
    exact hintact

end Cover

/-- Two payloads as JSON texts, one of them with the separator in it. -/
def displaySample : Bool → String
  | true => "\"a|b\""
  | false => "null"

theorem displaySample_injective : Function.Injective displaySample := by
  intro a b h
  cases a
  all_goals cases b
  all_goals first | rfl | exact absurd h (by decide)

theorem quoted_displaySample (p : Bool) : Text.Quoted '|' (displaySample p).toList := by
  cases p
  all_goals decide

def readSecretCall : RecordCall Bool where
  recordId := 1
  now := 1700000000000
  kind := .readSecret
  actor := .user "ada"
  dim := 2
  task := 3
  caps := 0x200000000
  payload := true

def readSecretRecord : AuditRecord Bool where
  recordId := 1
  kind := .readSecret
  actor := "user:ada"
  dimensionId := 2
  taskId := 3
  capabilities := 0x200000000
  payload := true
  occurredAtMs := 1700000000000
  prevHash := ""
  hash := hashInput displaySample 1 .readSecret "user:ada" 2 3 1700000000000 "" true

open PrivilegedAuditLog

def elevatedRecord : AuditRecord Bool :=
  { readSecretRecord with capabilities := 0x8000000000000000 }

theorem recorded_first :
    (recorded id displaySample [readSecretCall])[0]? = some readSecretRecord := rfl

/-- Another user reads a secret, a third one without the capability tries to, and the first
one reads again. -/
def readSecretCalls : List (RecordCall Bool) :=
  [readSecretCall, { readSecretCall with recordId := 4, actor := .user "bob", payload := false },
    { readSecretCall with recordId := 5, actor := .user "eve", caps := 0 },
    { readSecretCall with recordId := 6, now := 1700000000001 }]

def innerRecord : AuditRecord Bool where
  recordId := 4
  kind := .readSecret
  actor := "user:bob"
  dimensionId := 2
  taskId := 3
  capabilities := 0x200000000
  payload := false
  occurredAtMs := 1700000000000
  prevHash := readSecretRecord.hash
  hash := hashInput displaySample 4 .readSecret "user:bob" 2 3 1700000000000
    readSecretRecord.hash false

def renamedRecord : AuditRecord Bool :=
  { innerRecord with actor := "user:mallory" }

theorem recorded_inner :
    (recorded id displaySample readSecretCalls)[1]? = some innerRecord := rfl

theorem verifyChain_tampered_iff_actor :
    (recorded id displaySample readSecretCalls).length = 3 ∧
      verifyChain id displaySample (recorded id displaySample readSecretCalls) = .ok () ∧
      verifyChain id displaySample ((recorded id displaySample readSecretCalls).set 1
        renamedRecord) ≠ .ok () := by
  obtain ⟨haccepted, hchange⟩ := verifyChain_tampered_iff id displaySample
    Function.injective_id displaySample_injective quoted_displaySample readSecretCalls
  have hrejected := (hchange 1 innerRecord renamedRecord recorded_inner rfl).mpr
  refine ⟨rfl, haccepted, hrejected fun h => ?_⟩
  exact absurd (congrArg AuditRecord.actor h) (by decide)

/-- A record whose capabilities are changed is accepted. -/
theorem exists_accepted_change :
    Function.Injective (id : String → String) ∧
      (recorded id displaySample [readSecretCall])[0]? = some readSecretRecord ∧
      elevatedRecord.hash = readSecretRecord.hash ∧ elevatedRecord ≠ readSecretRecord ∧
      verifyChain id displaySample ((recorded id displaySample [readSecretCall]).set 0
        elevatedRecord) = .ok () := by
  refine ⟨Function.injective_id, recorded_first, rfl, ?_, ?_⟩
  · intro h
    exact absurd (congrArg AuditRecord.capabilities h) (by decide)
  · rw [verifyChain, verifyFrom_eq_ok_iff]
    refine ((chained_recorded [readSecretCall]).set recorded_first ?_).mpr ⟨rfl, rfl⟩
    rfl

end Security

end InfinityOS
