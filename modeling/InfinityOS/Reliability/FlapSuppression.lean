import InfinityOS.Reliability.Incidents

/-!
# Flap suppression

A rule is to open an incident only after as many matching signals as its threshold says have
arrived since the last incident was resolved, and to keep these signals with the incident. The
counts are never reset, and an incident starts with the signal that opens it, so rules whose
threshold is above one do neither. They behave as they should only as long as they open nothing.
-/

namespace InfinityOS

namespace Reliability

open Transition

namespace IncidentPipeline

def outcomes (p : IncidentPipeline) (signal : TelemetrySignal) (draws : ℕ → Draw) :
    List (IncidentRule × Outcome) :=
  (ingestRules signal draws 0 (p.matchingRules signal) p).1

/-! ## What should be -/

/-- The signals that have arrived for a rule and a dimension, after one more call. -/
def collect (rule : IncidentRule) (dimensionId : String) (p : IncidentPipeline)
    (arrived : List TelemetrySignal) : Call → List TelemetrySignal
  | .ingest signal _ =>
      if rule ∈ p.matchingRules signal ∧ signal.dimensionId = dimensionId then arrived ++ [signal]
      else arrived
  | .resolve id _ =>
      if (p.incidents[id]?.any fun inc => decide (inc.Of rule.id dimensionId)) = true then []
      else arrived
  | _ => arrived

def arrivedFrom (rule : IncidentRule) (dimensionId : String) :
    IncidentPipeline → List TelemetrySignal → List Call → List TelemetrySignal
  | _, arrived, [] => arrived
  | p, arrived, call :: calls =>
      arrivedFrom rule dimensionId (step p call).2 (collect rule dimensionId p arrived call) calls

/-- The matching signals of the dimension since an incident of the two was resolved last, or
since the start. -/
def arrived (past : List Call) (rule : IncidentRule) (dimensionId : String) :
    List TelemetrySignal :=
  arrivedFrom rule dimensionId new [] past

/-- The last of these signals, as many as the threshold says and at least one. -/
def contributors (rule : IncidentRule) (signals : List TelemetrySignal) : List TelemetrySignal :=
  signals.drop (signals.length - max rule.thresholdCount.toNat 1)

structure Earned (rule : IncidentRule) (signals : List TelemetrySignal) (inc : Incident) :
    Prop where
  enough : rule.thresholdCount.toNat ≤ signals.length
  kept : (contributors rule signals).Sublist inc.signals

/-- Every incident that is opened in a run is earned. -/
def FlapSuppressed (calls : List Call) : Prop :=
  ∀ past signal draws, past ++ [.ingest signal draws] <+: calls → ∀ rule inc,
    (rule, .opened inc) ∈ (final step new past).outcomes signal draws →
      Earned rule (arrived past rule signal.dimensionId ++ [signal]) inc

/-! ## The loop, rule by rule -/

/-- Other rules leave the counts of a rule alone and open no incident for it. -/
structure Foreign (ruleId : String) (p p' : IncidentPipeline) : Prop where
  count : ∀ dimensionId, p'.count ruleId dimensionId = p.count ruleId dimensionId
  incidents : ∀ (id : String) (inc : Incident), p'.incidents[id]? = some inc →
    inc.createdByRule = some ruleId → p.incidents[id]? = some inc

section Loop

variable {ruleId : String} {p p' p'' : IncidentPipeline} {signal : TelemetrySignal}

theorem Foreign.refl (ruleId : String) (p : IncidentPipeline) : Foreign ruleId p p :=
  ⟨fun _ => rfl, fun _ _ hget _ => hget⟩

theorem Foreign.trans (h : Foreign ruleId p p') (h' : Foreign ruleId p' p'') :
    Foreign ruleId p p'' :=
  ⟨fun dimensionId => (h'.count dimensionId).trans (h.count dimensionId),
    fun id inc hget hrule => h.incidents id inc (h'.incidents id inc hget hrule) hrule⟩

/-- A rule leaves an incident alone, or it is one of the rule and the dimension, and the count has
reached the threshold. -/
theorem incident_ingestRule {draw : Draw} {rule : IncidentRule} {id : String} {inc : Incident}
    (hget : (p.ingestRule signal draw rule).2.incidents[id]? = some inc) :
    p.incidents[id]? = some inc ∨ inc.Of rule.id signal.dimensionId ∧
      rule.thresholdCount ≤ p.count rule.id signal.dimensionId + 1 := by
  have hhandled := ingestRule_handled p signal draw rule
  generalize (p.ingestRule signal draw rule).2.incidents = incidents at hhandled hget
  generalize (p.ingestRule signal draw rule).1 = outcome at hhandled
  cases hhandled with
  | suppressed hlt => exact .inl hget
  | appended key existing hle hexisting hof hopen =>
      rw [Maps.getElem?_insert_ite] at hget
      split at hget
      · rw [Option.some.injEq] at hget
        subst hget
        exact .inr ⟨hof, hle⟩
      · exact .inl hget
  | opened hle hnone =>
      rw [Maps.getElem?_insert_ite] at hget
      split at hget
      · rw [Option.some.injEq] at hget
        subst hget
        exact .inr ⟨⟨rfl, rfl⟩, hle⟩
      · exact .inl hget

theorem foreign_ingestRule {rule : IncidentRule} (draw : Draw) (hrule : rule.id ≠ ruleId) :
    Foreign ruleId p (p.ingestRule signal draw rule).2 := by
  refine ⟨fun dimensionId => ?_, fun id inc hget hcreated => ?_⟩
  · rw [count_ingestRule, if_neg fun h => hrule h.1.symm]
  · rcases incident_ingestRule hget with hbefore | ⟨hof, -⟩
    · exact hbefore
    · exact absurd (Option.some.inj (hof.1.symm.trans hcreated)) hrule

theorem foreign_ingestRules (draws : ℕ → Draw) (k : ℕ) {rules : List IncidentRule}
    (hrules : ∀ rule ∈ rules, rule.id ≠ ruleId) :
    Foreign ruleId p (ingestRules signal draws k rules p).2 := by
  induction rules generalizing k p with
  | nil => exact .refl ruleId p
  | cons rule rules ih =>
      rw [List.forall_mem_cons] at hrules
      exact (foreign_ingestRule (draws k) hrules.1).trans (ih (k + 1) hrules.2)

theorem mem_rules_of_mem_outcomes (draws : ℕ → Draw) (k : ℕ) {rules : List IncidentRule}
    {entry : IncidentRule × Outcome} (h : entry ∈ (ingestRules signal draws k rules p).1) :
    entry.1 ∈ rules := by
  induction rules generalizing k p with
  | nil => cases h
  | cons rule rules ih =>
      rw [ingestRules] at h
      rcases List.mem_cons.mp h with rfl | hrest
      · exact List.mem_cons_self
      · exact List.mem_cons_of_mem rule (ih (k + 1) hrest)

/-- What a rule makes of a signal it makes in a state that only other rules have changed, and
only other rules change it afterwards. -/
theorem exists_ingestRule (p : IncidentPipeline) (signal : TelemetrySignal) (draws : ℕ → Draw)
    (k : ℕ) {rules : List IncidentRule}
    (hnodup : (rules.map IncidentRule.id).Nodup) {rule : IncidentRule} (hrule : rule ∈ rules) :
    ∃ p' draw, Foreign rule.id p p' ∧
      Foreign rule.id (p'.ingestRule signal draw rule).2
        (ingestRules signal draws k rules p).2 ∧
      ∀ outcome, (rule, outcome) ∈ (ingestRules signal draws k rules p).1 ↔
        outcome = (p'.ingestRule signal draw rule).1 := by
  induction rules generalizing k p with
  | nil => cases hrule
  | cons first rules ih =>
      rw [List.map_cons, List.nodup_cons] at hnodup
      have hother : ∀ other ∈ rules, other.id ≠ first.id := by
        intro other hmem heq
        exact hnodup.1 (heq ▸ List.mem_map_of_mem hmem)
      rcases List.mem_cons.mp hrule with rfl | hmem
      · refine ⟨p, draws k, .refl _ p, foreign_ingestRules draws (k + 1) hother, ?_⟩
        intro outcome
        rw [ingestRules]
        constructor
        · intro h
          rcases List.mem_cons.mp h with heq | hrest
          · exact (Prod.mk.inj heq).2
          · exact absurd rfl (hother _ (mem_rules_of_mem_outcomes draws (k + 1) hrest))
        · rintro rfl
          exact List.mem_cons_self
      · obtain ⟨p', draw, hbefore, hafter, houtcome⟩ :=
          ih (p.ingestRule signal (draws k) first).2 (k + 1) hnodup.2 hmem
        have hne : first.id ≠ rule.id := (hother rule hmem).symm
        refine ⟨p', draw, (foreign_ingestRule (draws k) hne).trans hbefore, hafter, ?_⟩
        intro outcome
        rw [← houtcome, ingestRules]
        constructor
        · intro h
          rcases List.mem_cons.mp h with heq | hrest
          · exact absurd (congrArg IncidentRule.id (Prod.mk.inj heq).1.symm) hne
          · exact hrest
        · exact List.mem_cons_of_mem _

end Loop

/-! ## What the calls say of the counts -/

/-- No rule of the id has been registered. -/
def Fresh (past : List Call) (ruleId : String) : Prop :=
  ∀ rule, .addRule rule ∈ past → rule.id ≠ ruleId

def RegisteredAt (past : List Call) (rule : IncidentRule) (after : List Call) : Prop :=
  ∃ before, past = before ++ .addRule rule :: after ∧ Fresh before rule.id

def brings (rule : IncidentRule) (dimensionId : String) : Call → Bool
  | .ingest signal _ => rule.matches signal && decide (signal.dimensionId = dimensionId)
  | _ => false

/-- Rules with a threshold above one get fewer signals than it says. -/
def Quiet (calls : List Call) : Prop :=
  ∀ rule after, RegisteredAt calls rule after → 2 ≤ rule.thresholdCount → ∀ dimensionId,
    after.countP (brings rule dimensionId) < rule.thresholdCount.toNat

section Calls

variable {past : List Call} {call : Call} {rule : IncidentRule} {ruleId : String}

theorem fresh_concat : Fresh (past ++ [call]) ruleId ↔
    Fresh past ruleId ∧ ∀ rule, call = .addRule rule → rule.id ≠ ruleId := by
  constructor
  · intro h
    refine ⟨fun rule hmem => h rule (List.mem_append_left _ hmem), ?_⟩
    rintro rule rfl
    exact h rule (List.mem_append_right _ List.mem_cons_self)
  · rintro ⟨hpast, hcall⟩ rule hmem
    rw [List.mem_append, List.mem_singleton] at hmem
    exact hmem.elim (hpast rule) fun heq => hcall rule heq.symm

theorem registeredAt_concat {after : List Call} : RegisteredAt (past ++ [call]) rule after ↔
    (after = [] ∧ call = .addRule rule ∧ Fresh past rule.id) ∨
      ∃ after', after = after' ++ [call] ∧ RegisteredAt past rule after' := by
  constructor
  · rintro ⟨before, hsplit, hfresh⟩
    rcases List.eq_nil_or_concat after with rfl | ⟨after', last, rfl⟩
    · obtain ⟨rfl, hcall⟩ := List.append_inj' hsplit rfl
      exact .inl ⟨rfl, (List.cons.inj hcall).1, hfresh⟩
    · rw [List.concat_eq_append, ← List.cons_append, ← List.append_assoc] at hsplit
      obtain ⟨rfl, hlast⟩ := List.append_inj' hsplit rfl
      rw [List.concat_eq_append, hlast]
      exact .inr ⟨after', rfl, before, rfl, hfresh⟩
  · rintro (⟨rfl, rfl, hfresh⟩ | ⟨after', rfl, before, rfl, hfresh⟩)
    · exact ⟨past, rfl, hfresh⟩
    · exact ⟨before, by rw [List.append_assoc, List.cons_append], hfresh⟩

theorem exists_registeredAt (h : ¬ Fresh past ruleId) :
    ∃ rule after, RegisteredAt past rule after ∧ rule.id = ruleId := by
  induction past using List.reverseRecOn with
  | nil => exact absurd (fun rule hmem => by cases hmem) h
  | append_singleton past call ih =>
      by_cases hpast : Fresh past ruleId
      · have hcall : ∃ rule, call = .addRule rule ∧ rule.id = ruleId := by
          by_contra hnone
          push Not at hnone
          exact h (fresh_concat.mpr ⟨hpast, hnone⟩)
        obtain ⟨rule, rfl, rfl⟩ := hcall
        exact ⟨rule, [], registeredAt_concat.mpr (.inl ⟨rfl, rfl, hpast⟩), rfl⟩
      · obtain ⟨rule, after, hregistered, hid⟩ := ih hpast
        exact ⟨rule, after ++ [call],
          registeredAt_concat.mpr (.inr ⟨after, rfl, hregistered⟩), hid⟩

end Calls

/-- What the pipeline has counted is what the calls brought, and a rule has incidents only when
its threshold was reached. -/
structure Counted (past : List Call) (p : IncidentPipeline) : Prop where
  distinct : (p.rules.map IncidentRule.id).Nodup
  rules : ∀ rule, rule ∈ p.rules ↔ ∃ after, RegisteredAt past rule after
  counts : ∀ rule after, RegisteredAt past rule after → ∀ dimensionId,
    p.count rule.id dimensionId = .ofNat (after.countP (brings rule dimensionId))
  reached : ∀ rule after, RegisteredAt past rule after → ∀ (id : String) (inc : Incident),
    p.incidents[id]? = some inc → inc.createdByRule = some rule.id →
      rule.thresholdCount.toNat ≤ after.countP (brings rule inc.dimensionId)
  unknownCounts : ∀ ruleId, Fresh past ruleId → ∀ dimensionId, p.count ruleId dimensionId = 0
  unknownIncidents : ∀ ruleId, Fresh past ruleId → ∀ (id : String) (inc : Incident),
    p.incidents[id]? = some inc → inc.createdByRule ≠ some ruleId

namespace Counted

variable {past : List Call} {p : IncidentPipeline}

theorem fresh_iff (h : Counted past p) (ruleId : String) :
    Fresh past ruleId ↔ ∀ rule ∈ p.rules, rule.id ≠ ruleId := by
  constructor
  · rintro hfresh rule hrule
    obtain ⟨after, before, rfl, -⟩ := (h.rules rule).mp hrule
    exact hfresh rule (by simp)
  · intro hrules
    by_contra hknown
    obtain ⟨rule, after, hregistered, hid⟩ := exists_registeredAt hknown
    exact hrules rule ((h.rules rule).mpr ⟨after, hregistered⟩) hid

/-- A call that registers no rule. -/
theorem extend (h : Counted past p) {call : Call} {p' : IncidentPipeline}
    (hcall : ∀ rule, call = .addRule rule → ¬ Fresh past rule.id) (hrules : p'.rules = p.rules)
    (hcounts : ∀ rule ∈ p.rules, ∀ dimensionId, p'.count rule.id dimensionId =
      p.count rule.id dimensionId + .ofNat (brings rule dimensionId call).toNat)
    (hunknown : ∀ ruleId, (∀ rule ∈ p.rules, rule.id ≠ ruleId) → ∀ dimensionId,
      p'.count ruleId dimensionId = p.count ruleId dimensionId)
    (hincidents : ∀ (id : String) (inc' : Incident) (ruleId : String),
      p'.incidents[id]? = some inc' → inc'.createdByRule = some ruleId →
        (∃ (id : String) (inc : Incident), p.incidents[id]? = some inc ∧
          inc.Of ruleId inc'.dimensionId) ∨
        ∃ rule ∈ p.rules, rule.id = ruleId ∧
          rule.thresholdCount ≤ p'.count ruleId inc'.dimensionId) :
    Counted (past ++ [call]) p' := by
  have hregistered : ∀ rule after, RegisteredAt (past ++ [call]) rule after ↔
      ∃ after', after = after' ++ [call] ∧ RegisteredAt past rule after' := by
    intro rule after
    rw [registeredAt_concat]
    exact or_iff_right fun hnew => hcall rule hnew.2.1 hnew.2.2
  have hfresh : ∀ ruleId, Fresh (past ++ [call]) ruleId → Fresh past ruleId :=
    fun ruleId hnew => (fresh_concat.mp hnew).1
  have hafter : ∀ rule after', RegisteredAt past rule after' → ∀ dimensionId,
      p'.count rule.id dimensionId =
        .ofNat ((after' ++ [call]).countP (brings rule dimensionId)) := by
    intro rule after' hold dimensionId
    rw [hcounts rule ((h.rules rule).mpr ⟨after', hold⟩), h.counts rule after' hold,
      ← UInt32.ofNat_add, List.countP_append, List.countP_singleton]
    cases brings rule dimensionId call with
    | true => rfl
    | false => rfl
  refine ⟨hrules ▸ h.distinct, ?_, ?_, ?_, ?_, ?_⟩
  · intro rule
    rw [hrules, h.rules]
    constructor
    · rintro ⟨after, hold⟩
      exact ⟨after ++ [call], (hregistered rule _).mpr ⟨after, rfl, hold⟩⟩
    · rintro ⟨after, hnew⟩
      obtain ⟨after', -, hold⟩ := (hregistered rule after).mp hnew
      exact ⟨after', hold⟩
  · intro rule after hnew
    obtain ⟨after', rfl, hold⟩ := (hregistered rule after).mp hnew
    exact hafter rule after' hold
  · intro rule after hnew id inc' hget hcreated
    obtain ⟨after', rfl, hold⟩ := (hregistered rule after).mp hnew
    rcases hincidents id inc' rule.id hget hcreated with
      ⟨id', inc, hinc, hof, hdimension⟩ | ⟨other, hother, hid, hle⟩
    · have hreached := h.reached rule after' hold id' inc hinc hof
      rw [hdimension] at hreached
      rw [List.countP_append]
      omega
    · have hsame : other = rule := List.inj_on_of_nodup_map h.distinct hother
        ((h.rules rule).mpr ⟨after', hold⟩) hid
      rw [hsame, hafter rule after' hold, UInt32.le_iff_toNat_le, UInt32.toNat_ofNat'] at hle
      exact hle.trans (Nat.mod_le _ _)
  · intro ruleId hnew dimensionId
    have hpast := hfresh ruleId hnew
    rw [hunknown ruleId ((h.fresh_iff ruleId).mp hpast), h.unknownCounts ruleId hpast]
  · intro ruleId hnew id inc' hget hcreated
    have hpast := hfresh ruleId hnew
    rcases hincidents id inc' ruleId hget hcreated with
      ⟨id', inc, hinc, hof, -⟩ | ⟨rule, hrule, hid, -⟩
    · exact h.unknownIncidents ruleId hpast id' inc hinc hof
    · exact (h.fresh_iff ruleId).mp hpast rule hrule hid

theorem frame (h : Counted past p) {call : Call} {p' : IncidentPipeline}
    (hcall : ∀ rule, call = .addRule rule → ¬ Fresh past rule.id)
    (hbrings : ∀ rule dimensionId, brings rule dimensionId call = false)
    (hrules : p'.rules = p.rules) (hcounts : p'.signalCounts = p.signalCounts)
    (hincidents : ∀ (id : String) (inc' : Incident), p'.incidents[id]? = some inc' →
      ∃ inc : Incident, p.incidents[id]? = some inc ∧ inc.createdByRule = inc'.createdByRule ∧
        inc.dimensionId = inc'.dimensionId) :
    Counted (past ++ [call]) p' := by
  have hcount : ∀ ruleId dimensionId, p'.count ruleId dimensionId =
      p.count ruleId dimensionId := by
    intro ruleId dimensionId
    rw [count, count, hcounts]
  refine h.extend hcall hrules ?_ (fun ruleId _ dimensionId => hcount ruleId dimensionId) ?_
  · intro rule _ dimensionId
    rw [hcount, hbrings]
    exact (UInt32.add_zero _).symm
  · intro id inc' ruleId hget hcreated
    obtain ⟨inc, hinc, hrule, hdimension⟩ := hincidents id inc' hget
    exact .inl ⟨id, inc, hinc, hrule.trans hcreated, hdimension⟩

theorem modify (h : Counted past p) {call : Call} (id : String) {f : Incident → Incident}
    (hcall : ∀ rule, call ≠ .addRule rule)
    (hbrings : ∀ rule dimensionId, brings rule dimensionId call = false)
    (hf : ∀ inc, Incident.createdByRule inc = (f inc).createdByRule ∧
      Incident.dimensionId inc = (f inc).dimensionId) :
    Counted (past ++ [call]) (p.modify id f) := by
  rw [IncidentPipeline.modify]
  split
  · exact h.frame (fun rule heq => absurd heq (hcall rule)) hbrings rfl rfl
      fun _ inc' hget => ⟨inc', hget, rfl, rfl⟩
  · next inc hinc =>
      refine h.frame (fun rule heq => absurd heq (hcall rule)) hbrings rfl rfl ?_
      intro id' inc' hget
      rw [Maps.getElem?_insert_ite] at hget
      split at hget
      · next hid =>
          rw [Option.some.injEq] at hget
          subst hid hget
          exact ⟨inc, hinc, hf inc⟩
      · exact ⟨inc', hget, rfl, rfl⟩

/-- A rule of a new id is registered, with nothing counted for it. -/
theorem register (h : Counted past p) {rule : IncidentRule} (hpast : Fresh past rule.id) :
    Counted (past ++ [.addRule rule]) { p with rules := p.rules ++ [rule] } := by
  have hcountP : ∀ (other : IncidentRule) (after : List Call) (dimensionId : String),
      (after ++ [Call.addRule rule]).countP (brings other dimensionId) =
        after.countP (brings other dimensionId) := by
    intro other after dimensionId
    rw [List.countP_append]
    rfl
  refine ⟨?_, ?_, ?_, ?_, fun ruleId hconcat => h.unknownCounts ruleId
    (fresh_concat.mp hconcat).1, fun ruleId hconcat => h.unknownIncidents ruleId
    (fresh_concat.mp hconcat).1⟩
  · change ((p.rules ++ [rule]).map IncidentRule.id).Nodup
    rw [List.map_append, List.nodup_append']
    refine ⟨h.distinct, List.nodup_singleton _, ?_⟩
    rw [List.map_singleton, List.disjoint_singleton, List.mem_map]
    rintro ⟨other, hother, hid⟩
    exact (h.fresh_iff rule.id).mp hpast other hother hid
  · intro other
    change other ∈ p.rules ++ [rule] ↔ _
    rw [List.mem_append, List.mem_singleton, h.rules]
    constructor
    · rintro (⟨after, hold⟩ | rfl)
      · exact ⟨_, registeredAt_concat.mpr (.inr ⟨after, rfl, hold⟩)⟩
      · exact ⟨[], registeredAt_concat.mpr (.inl ⟨rfl, rfl, hpast⟩)⟩
    · rintro ⟨after, hregistered⟩
      rcases registeredAt_concat.mp hregistered with ⟨-, heq, -⟩ | ⟨after', -, hold⟩
      · cases heq
        exact .inr rfl
      · exact .inl ⟨after', hold⟩
  · intro other after hregistered dimensionId
    rcases registeredAt_concat.mp hregistered with ⟨rfl, heq, -⟩ | ⟨after', rfl, hold⟩
    · cases heq
      exact h.unknownCounts rule.id hpast dimensionId
    · rw [hcountP]
      exact h.counts other after' hold dimensionId
  · intro other after hregistered id inc hget hcreated
    rcases registeredAt_concat.mp hregistered with ⟨rfl, heq, -⟩ | ⟨after', rfl, hold⟩
    · cases heq
      exact absurd hcreated (h.unknownIncidents rule.id hpast id inc hget)
    · rw [hcountP]
      exact h.reached other after' hold id inc hget hcreated

theorem addRule (h : Counted past p) (rule : IncidentRule) :
    Counted (past ++ [.addRule rule]) (p.addRule rule).2 := by
  rw [IncidentPipeline.addRule]
  split
  · next hknown =>
      have hnot : ¬ Fresh past rule.id := by
        rw [h.fresh_iff]
        simpa using hknown
      refine h.frame ?_ (fun _ _ => rfl) rfl rfl fun _ inc' hget => ⟨inc', hget, rfl, rfl⟩
      rintro other heq
      cases heq
      exact hnot
  · next hnew => exact h.register ((h.fresh_iff rule.id).mpr (by simpa using hnew))

theorem nodup_matchingRules (h : Counted past p) (signal : TelemetrySignal) :
    ((p.matchingRules signal).map IncidentRule.id).Nodup :=
  h.distinct.sublist (List.filter_sublist.map _)

theorem foreign_ingest (h : Counted past p) (signal : TelemetrySignal) (draws : ℕ → Draw)
    {rule : IncidentRule} (hrule : rule ∈ p.rules) (hmatches : rule.matches signal = false) :
    Foreign rule.id p (p.ingest signal draws).2 := by
  apply foreign_ingestRules
  intro other hother hid
  obtain ⟨hmem, htrue⟩ := List.mem_filter.mp hother
  have hsame : other = rule := List.inj_on_of_nodup_map h.distinct hmem hrule hid
  rw [hsame, hmatches] at htrue
  cases htrue

theorem count_ingest (h : Counted past p) (signal : TelemetrySignal) (draws : ℕ → Draw)
    {rule : IncidentRule} (hrule : rule ∈ p.rules) (dimensionId : String) :
    (p.ingest signal draws).2.count rule.id dimensionId = p.count rule.id dimensionId +
      .ofNat (brings rule dimensionId (.ingest signal draws)).toNat := by
  rw [brings]
  cases hmatches : rule.matches signal with
  | false =>
      rw [(h.foreign_ingest signal draws hrule hmatches).count]
      exact (UInt32.add_zero _).symm
  | true =>
      obtain ⟨p', draw, hbefore, hafter, -⟩ := exists_ingestRule p signal draws 0
        (h.nodup_matchingRules signal) (List.mem_filter.mpr ⟨hrule, hmatches⟩)
      have hcount := hafter.count dimensionId
      rw [count_ingestRule, hbefore.count] at hcount
      change (ingestRules signal draws 0 (p.matchingRules signal) p).2.count rule.id dimensionId = _
      rw [hcount]
      by_cases hdimension : dimensionId = signal.dimensionId
      · subst hdimension
        simp
      · simp [hdimension, Ne.symm hdimension]

theorem ingest (h : Counted past p) (signal : TelemetrySignal) (draws : ℕ → Draw) :
    Counted (past ++ [.ingest signal draws]) (p.ingest signal draws).2 := by
  refine h.extend (fun rule heq => by cases heq) (rules_ingest p signal draws)
    (fun rule hrule => h.count_ingest signal draws hrule) ?_ ?_
  · intro ruleId hnone dimensionId
    exact (foreign_ingestRules draws 0 fun rule hrule => hnone rule
      (List.mem_filter.mp hrule).1).count dimensionId
  · intro id inc' ruleId hget hcreated
    by_cases hmatching : ∃ rule ∈ p.matchingRules signal, rule.id = ruleId
    · obtain ⟨rule, hrule, rfl⟩ := hmatching
      have hmem := (List.mem_filter.mp hrule).1
      obtain ⟨p', draw, hbefore, hafter, -⟩ := exists_ingestRule p signal draws 0
        (h.nodup_matchingRules signal) hrule
      have hget' := hafter.incidents id inc' hget hcreated
      have hcount := hafter.count signal.dimensionId
      rw [count_ingestRule, if_pos ⟨rfl, rfl⟩] at hcount
      rcases incident_ingestRule hget' with hbefore' | ⟨hof, hle⟩
      · exact .inl ⟨id, inc', hbefore.incidents id inc' hbefore' hcreated, hcreated, rfl⟩
      · rw [← hcount, ← hof.2] at hle
        exact .inr ⟨rule, hmem, rfl, hle⟩
    · push Not at hmatching
      have hforeign : Foreign ruleId p (p.ingest signal draws).2 :=
        foreign_ingestRules draws 0 hmatching
      exact .inl ⟨id, inc', hforeign.incidents id inc' hget hcreated, hcreated, rfl⟩

theorem step (h : Counted past p) (call : Call) : Counted (past ++ [call]) (p.step call).2 := by
  cases call with
  | addRule rule => exact h.addRule rule
  | ingest signal draws => exact h.ingest signal draws
  | acknowledge id =>
      exact h.modify id (fun _ heq => by cases heq) (fun _ _ => rfl) fun _ => ⟨rfl, rfl⟩
  | resolve id now =>
      exact h.modify id (fun _ heq => by cases heq) (fun _ _ => rfl) fun _ => ⟨rfl, rfl⟩

end Counted

theorem counted_final (calls : List Call) : Counted calls (final step new calls) := by
  induction calls using List.reverseRecOn with
  | nil =>
      refine ⟨List.nodup_nil, ?_, ?_, ?_, fun _ _ _ => rfl, ?_⟩
      · intro rule
        simp [new, RegisteredAt]
      · rintro rule after ⟨before, hsplit, -⟩
        simp at hsplit
      · rintro rule after ⟨before, hsplit, -⟩
        simp at hsplit
      · intro ruleId _ id inc hget
        simp [new] at hget
  | append_singleton past call ih =>
      rw [final_concat]
      exact ih.step call

/-! ## Incidents are earned by opening none -/

theorem exists_eq_append_of_lt_countP {α : Type*} {p : α → Bool} {n : ℕ} {l : List α}
    (h : n < l.countP p) :
    ∃ before x after, l = before ++ x :: after ∧ p x = true ∧ before.countP p = n := by
  induction l generalizing n with
  | nil => simp at h
  | cons x l ih =>
      by_cases hx : p x = true
      · cases n with
        | zero => exact ⟨[], x, l, rfl, hx, rfl⟩
        | succ n =>
            rw [List.countP_cons_of_pos hx] at h
            obtain ⟨before, y, after, rfl, hy, hcount⟩ := ih (n := n) (by omega)
            exact ⟨x :: before, y, after, rfl, hy, by rw [List.countP_cons_of_pos hx, hcount]⟩
      · rw [List.countP_cons_of_neg hx] at h
        obtain ⟨before, y, after, rfl, hy, hcount⟩ := ih h
        exact ⟨x :: before, y, after, rfl, hy, by rw [List.countP_cons_of_neg hx, hcount]⟩

section Openings

variable {calls past : List Call} {signal : TelemetrySignal} {draws : ℕ → Draw}
  {rule : IncidentRule} {inc : Incident} {after : List Call}

/-- A rule opens an incident once its count has reached the threshold, with one signal. -/
theorem opened_of_mem (h : (rule, .opened inc) ∈ (final step new past).outcomes signal draws) :
    rule ∈ (final step new past).rules ∧ rule.matches signal = true ∧
      inc.signals = [signal] ∧ rule.thresholdCount ≤
        (final step new past).count rule.id signal.dimensionId + 1 := by
  have hcounted := counted_final past
  have hmatching := mem_rules_of_mem_outcomes draws 0 h
  obtain ⟨hrule, hmatches⟩ := List.mem_filter.mp hmatching
  obtain ⟨p', draw, hbefore, -, houtcome⟩ := exists_ingestRule (final step new past) signal
    draws 0 (hcounted.nodup_matchingRules signal) hmatching
  have hopened := (houtcome _).mp h
  have hhandled := ingestRule_handled p' signal draw rule
  rw [← hopened] at hhandled
  generalize (p'.ingestRule signal draw rule).2.incidents = incidents at hhandled
  cases hhandled with
  | opened hle hnone =>
      rw [hbefore.count] at hle
      exact ⟨hrule, hmatches, rfl, hle⟩

theorem flapSuppressed_of_quiet (h : Quiet calls) : FlapSuppressed calls := by
  intro past signal draws hpast rule inc hopened
  obtain ⟨hrule, hmatches, hsignals, hle⟩ := opened_of_mem hopened
  have hcounted := counted_final past
  obtain ⟨after, hregistered⟩ := (hcounted.rules rule).mp hrule
  by_cases hthreshold : 2 ≤ rule.thresholdCount
  · -- the signals of the run are too few for the count that opened the incident
    rw [hcounted.counts rule after hregistered, UInt32.le_iff_toNat_le, UInt32.toNat_add,
      UInt32.toNat_ofNat'] at hle
    change rule.thresholdCount.toNat ≤
      (after.countP (brings rule signal.dimensionId) % 2 ^ 32 + 1) % 2 ^ 32 at hle
    obtain ⟨before, rfl, hfresh⟩ := hregistered
    obtain ⟨rest, rfl⟩ := hpast
    have hquiet := h rule (after ++ .ingest signal draws :: rest)
      ⟨before, by simp, hfresh⟩ hthreshold signal.dimensionId
    rw [List.countP_append, List.countP_cons_of_pos (by simp [brings, hmatches])] at hquiet
    have hlt := rule.thresholdCount.toNat_lt
    omega
  · have hsmall : rule.thresholdCount.toNat ≤ 1 := by
      rw [UInt32.le_iff_toNat_le] at hthreshold
      change ¬ 2 ≤ rule.thresholdCount.toNat at hthreshold
      omega
    refine ⟨?_, ?_⟩
    · rw [List.length_append, List.length_singleton]
      omega
    · rw [contributors, Nat.max_eq_right hsmall, List.length_append, List.length_singleton,
        Nat.add_sub_cancel, List.drop_left, hsignals]

theorem opened_of_reached (draws : ℕ → Draw) (hregistered : RegisteredAt past rule after)
    (hmatches : rule.matches signal = true)
    (hcount : after.countP (brings rule signal.dimensionId) + 1 = rule.thresholdCount.toNat) :
    ∃ inc, (rule, .opened inc) ∈ (final step new past).outcomes signal draws := by
  have hcounted := counted_final past
  have hrule := (hcounted.rules rule).mpr ⟨after, hregistered⟩
  have hlt := rule.thresholdCount.toNat_lt
  obtain ⟨p', draw, hbefore, -, houtcome⟩ := exists_ingestRule (final step new past) signal
    draws 0 (hcounted.nodup_matchingRules signal)
    (List.mem_filter.mpr ⟨hrule, hmatches⟩)
  have hhandled := ingestRule_handled p' signal draw rule
  generalize (p'.ingestRule signal draw rule).2.incidents = incidents at hhandled
  generalize (p'.ingestRule signal draw rule).1 = outcome at hhandled houtcome
  cases hhandled with
  | suppressed hsuppressed =>
      rw [hbefore.count, hcounted.counts rule after hregistered, UInt32.lt_iff_toNat_lt,
        UInt32.toNat_add, UInt32.toNat_ofNat'] at hsuppressed
      change (after.countP (brings rule signal.dimensionId) % 2 ^ 32 + 1) % 2 ^ 32 <
        rule.thresholdCount.toNat at hsuppressed
      omega
  | appended key inc hle hget hof hopen =>
      have hreached := hcounted.reached rule after hregistered key inc
        (hbefore.incidents key inc hget hof.1) hof.1
      rw [hof.2] at hreached
      omega
  | opened hle hnone => exact ⟨_, (houtcome _).mpr rfl⟩

theorem quiet_of_flapSuppressed (h : FlapSuppressed calls) : Quiet calls := by
  intro rule after hregistered hthreshold dimensionId
  by_contra hmany
  have htwo : 2 ≤ rule.thresholdCount.toNat := UInt32.le_iff_toNat_le.mp hthreshold
  obtain ⟨mid, call, rest, rfl, hbrings, hcount⟩ := exists_eq_append_of_lt_countP
    (p := brings rule dimensionId) (n := rule.thresholdCount.toNat - 1) (l := after) (by omega)
  cases call with
  | addRule other => cases hbrings
  | acknowledge id => cases hbrings
  | resolve id now => cases hbrings
  | ingest signal draws =>
      rw [brings, Bool.and_eq_true, decide_eq_true_eq] at hbrings
      obtain ⟨hmatches, rfl⟩ := hbrings
      obtain ⟨before, rfl, hfresh⟩ := hregistered
      have hmid : RegisteredAt (before ++ .addRule rule :: mid) rule mid := ⟨before, rfl, hfresh⟩
      obtain ⟨inc, hopened⟩ := opened_of_reached draws hmid hmatches (by omega)
      have hearned := h _ signal draws ⟨rest, by simp⟩ rule inc hopened
      have hkept := hearned.kept.length_le
      have henough := hearned.enough
      rw [(opened_of_mem hopened).2.2.1, contributors, List.length_drop,
        List.length_singleton] at hkept
      omega

/-- The incidents of a run are earned exactly if no rule with a threshold above one gets as many
signals as it says. -/
theorem flapSuppressed_iff_quiet (calls : List Call) : FlapSuppressed calls ↔ Quiet calls :=
  ⟨quiet_of_flapSuppressed, flapSuppressed_of_quiet⟩

end Openings

def thirdRule : IncidentRule :=
  { IncidentRule.immediate "r1" "slo." "SLO breach" .high with thresholdCount := 3 }

/-- Three signals and the resolution of the incident that they open. -/
def resolvedCalls : List Call :=
  [.addRule thirdRule, .ingest breach (drawing "i-1"), .ingest breach (drawing "i-1"),
    .ingest breach (drawing "i-1"), .resolve "i-1" 0]

/-- The first incident has one of its three signals, and the next one is opened by the first
signal after the resolution. -/
theorem flapping :
    ¬ FlapSuppressed resolvedCalls ∧
      ((final step new resolvedCalls).incidents["i-1"]?.map fun inc => inc.signals.length) =
        some 1 ∧
      (arrived resolvedCalls thirdRule "dim-1").length = 0 ∧
      (((final step new resolvedCalls).ingest breach (drawing "i-2")).2.incidents["i-2"]?.map
        fun inc => (inc.state, inc.signals.length)) = some (.open, 1) := by
  refine ⟨fun h => ?_, by decide +kernel, by decide +kernel, by decide +kernel⟩
  have hquiet := quiet_of_flapSuppressed h thirdRule resolvedCalls.tail
    ⟨[], rfl, fun rule hmem => by cases hmem⟩ (by decide) "dim-1"
  exact absurd hquiet (by decide +kernel)

end IncidentPipeline

end Reliability

end InfinityOS
