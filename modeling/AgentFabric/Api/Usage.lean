import Mathlib.Algebra.BigOperators.Group.List.Basic
import Mathlib.Algebra.Order.Ring.Rat
import Mathlib.Data.List.Dedup
import Mathlib.Data.List.Perm.Basic

/-!
# Usage in the projections

The projections report the usage of a run, of a task or of a worker from the rows of its metrics, amounts taken exactly.
-/

namespace AgentFabric.Api

inductive UsageField where
  | inputTokens | outputTokens | cacheReadTokens | cacheWriteTokens | reasoningTokens | requestCount | estimatedCostUSD
deriving DecidableEq, Repr

def UsageField.name : UsageField → String
  | .inputTokens => "inputTokens"
  | .outputTokens => "outputTokens"
  | .cacheReadTokens => "cacheReadTokens"
  | .cacheWriteTokens => "cacheWriteTokens"
  | .reasoningTokens => "reasoningTokens"
  | .requestCount => "requestCount"
  | .estimatedCostUSD => "estimatedCostUSD"

/-- The metrics that a field is reported from. -/
def UsageField.names : UsageField → List String
  | .estimatedCostUSD => ["estimatedCostUSD", "costUSD"]
  | field => [field.name]

/-- What the projections read of a row. -/
structure UsageRecord where
  metric : String
  runId : Option String
  value : Option Rat
  unavailableReason : Option String
deriving DecidableEq

inductive Reading where
  | known (value : Rat)
  | unavailable (reason : String)
deriving DecidableEq

def ofMetric (metric : String) (rows : List UsageRecord) : List UsageRecord := rows.filter (·.metric = metric)

def ofRun (run : String) (rows : List UsageRecord) : List UsageRecord := rows.filter (·.runId = some run)

/-- The runs of some rows, in the order of their first rows. -/
def runsOf (rows : List UsageRecord) : List String := (rows.filterMap (·.runId)).reverse.dedup.reverse

/-- `canonical or run_records` -/
def preferred (rows : List UsageRecord) : List UsageRecord :=
  if ofMetric "estimatedCostUSD" rows = [] then rows else ofMetric "estimatedCostUSD" rows

/-- The rows under the two names of a cost. -/
def costItems (rows : List UsageRecord) : List UsageRecord :=
  ofMetric "estimatedCostUSD" rows ++ ofMetric "costUSD" rows

def costRecords (rows : List UsageRecord) : List UsageRecord :=
  let items := costItems rows
  items.filter (·.runId.isNone) ++ (runsOf items).flatMap fun run => preferred (ofRun run items)

/-- The rows that have the field's metric. -/
def candidates : UsageField → List UsageRecord → List UsageRecord
  | .estimatedCostUSD, rows => costItems rows
  | field, rows => ofMetric field.name rows

def records : UsageField → List UsageRecord → List UsageRecord
  | .estimatedCostUSD, rows => costRecords rows
  | field, rows => ofMetric field.name rows

/-- `int(x)` -/
def truncate (x : Rat) : Int := x.num.tdiv x.den

def sumOf (rows : List UsageRecord) : Rat := (rows.filterMap (·.value)).sum

def total (field : UsageField) (rows : List UsageRecord) : Rat :=
  if field = .estimatedCostUSD then sumOf rows else truncate (sumOf rows)

/-- `_usage`, by the fields of its dictionary. -/
def usage (rows : List UsageRecord) (field : UsageField) : Reading :=
  match records field rows with
  | [] => .unavailable "notReported"
  | counted@(_ :: _) =>
    match counted.find? (·.value.isNone) with
    | some missing =>
      .unavailable (match missing.unavailableReason with
        | none | some "" => "unknown"
        | some reason => reason)
    | none => .known (total field counted)

variable {rows rows' : List UsageRecord} {field : UsageField} {run : String} {r : UsageRecord}

theorem usage_known_iff {v : Rat} : usage rows field = .known v ↔
    records field rows ≠ [] ∧ (∀ r ∈ records field rows, r.value ≠ none) ∧ v = total field (records field rows) := by
  unfold usage
  cases hrecords : records field rows with
  | nil => simp
  | cons r rest =>
    simp only [ne_eq, List.cons_ne_nil, not_false_eq_true, true_and]
    cases hfind : (r :: rest).find? (·.value.isNone) with
    | none =>
      rw [List.find?_eq_none] at hfind
      simp only [Option.isNone_iff_eq_none] at hfind
      simp only [Reading.known.injEq]
      exact ⟨fun h => ⟨hfind, h.symm⟩, fun h => h.2.symm⟩
    | some missing =>
      have hmem := List.mem_of_find?_eq_some hfind
      have hnone := List.find?_some hfind
      simp only [Option.isNone_iff_eq_none] at hnone
      simp only [reduceCtorEq, false_iff]
      rintro ⟨hall, -⟩
      exact hall missing hmem hnone

theorem known_iff : (∃ v, usage rows field = .known v) ↔
    records field rows ≠ [] ∧ ∀ r ∈ records field rows, r.value ≠ none := by
  simp only [usage_known_iff, exists_and_left, exists_eq, and_true]

/-! ## The records of a run -/

theorem mem_runsOf : run ∈ runsOf rows ↔ ∃ r ∈ rows, r.runId = some run := by
  simp [runsOf]

theorem runsOf_nodup : (runsOf rows).Nodup := List.nodup_reverse.mpr (List.nodup_dedup _)

theorem ofRun_ofMetric (metric : String) : ofRun run (ofMetric metric rows) = ofMetric metric (ofRun run rows) := by
  simp only [ofRun, ofMetric, List.filter_filter, Bool.and_comm]

theorem ofRun_costItems : ofRun run (costItems rows) = costItems (ofRun run rows) := by
  rw [costItems, costItems, ← ofRun_ofMetric, ← ofRun_ofMetric]
  exact List.filter_append _ _

theorem ofRun_candidates : ofRun run (candidates field rows) = candidates field (ofRun run rows) := by
  cases field with
  | estimatedCostUSD => exact ofRun_costItems
  | _ => exact ofRun_ofMetric _

theorem mem_of_mem_preferred (h : r ∈ preferred rows) : r ∈ rows := by
  unfold preferred at h
  split at h
  · exact h
  · exact List.mem_of_mem_filter h

theorem preferred_eq_nil (h : preferred rows = []) : rows = [] := by
  unfold preferred at h
  split at h
  · exact h
  · next hne => exact absurd h hne

theorem runsOf_ofRun (h : ofRun run rows ≠ []) : runsOf (ofRun run rows) = [run] := by
  have hmem : ∀ x ∈ runsOf (ofRun run rows), x = run := by
    intro x hx
    obtain ⟨r, hr, hrun⟩ := mem_runsOf.mp hx
    have hown := (List.mem_filter.mp hr).2
    rw [hrun] at hown
    simpa using hown
  obtain ⟨r, hr⟩ := List.exists_mem_of_ne_nil _ h
  have hrun : run ∈ runsOf (ofRun run rows) := mem_runsOf.mpr ⟨r, hr, by simpa using (List.mem_filter.mp hr).2⟩
  exact List.perm_singleton.mp
    ((List.perm_ext_iff_of_nodup runsOf_nodup (List.nodup_singleton run)).mpr fun x => by
      rw [List.mem_singleton]
      exact ⟨hmem x, fun hx => hx ▸ hrun⟩)

theorem records_of_ne (h : field ≠ .estimatedCostUSD) : records field rows = candidates field rows := by
  cases field with
  | estimatedCostUSD => exact absurd rfl h
  | _ => rfl

theorem records_ofRun : records field (ofRun run rows) =
    if field = .estimatedCostUSD then preferred (ofRun run (candidates field rows))
    else ofRun run (candidates field rows) := by
  by_cases hfield : field = .estimatedCostUSD
  · subst hfield
    rw [if_pos rfl, ofRun_candidates]
    show costRecords (ofRun run rows) = preferred (costItems (ofRun run rows))
    have hown : ofRun run (costItems (ofRun run rows)) = costItems (ofRun run rows) := by
      rw [ofRun_costItems]
      congr 1
      simp [ofRun]
    have hunscoped : (costItems (ofRun run rows)).filter (·.runId.isNone) = [] := by
      rw [← hown, ofRun, List.filter_filter, List.filter_eq_nil_iff]
      intro r _
      cases r.runId <;> simp
    simp only [costRecords, hunscoped, List.nil_append]
    by_cases hnil : costItems (ofRun run rows) = []
    · rw [hnil]
      rfl
    · rw [← hown] at hnil ⊢
      rw [runsOf_ofRun hnil, List.flatMap_singleton, hown, hown]
  · rw [if_neg hfield, records_of_ne hfield, ofRun_candidates]

theorem mem_candidates : r ∈ candidates field rows ↔ r ∈ rows ∧ r.metric ∈ field.names := by
  cases field <;> simp [candidates, costItems, ofMetric, UsageField.names, ← and_or_left]

theorem mem_records (h : r ∈ records field rows) : r ∈ rows ∧ r.metric ∈ field.names := by
  rw [← mem_candidates]
  by_cases hfield : field = .estimatedCostUSD
  · subst hfield
    rcases List.mem_append.mp h with h | h
    · exact List.mem_of_mem_filter h
    · obtain ⟨run, -, h⟩ := List.mem_flatMap.mp h
      exact List.mem_of_mem_filter (mem_of_mem_preferred h)
  · rwa [records_of_ne hfield] at h

/-! ## The records of a list -/

/-- The rows of a list are those of its runs. -/
theorem perm_flatMap_ofRun (hscoped : ∀ r ∈ rows, r.runId ≠ none) :
    rows.Perm ((runsOf rows).flatMap fun run => ofRun run rows) := by
  suffices h : ∀ (runs : List String) (rows : List UsageRecord), runs.Nodup →
      (∀ r ∈ rows, ∃ run ∈ runs, r.runId = some run) → rows.Perm (runs.flatMap fun run => ofRun run rows) by
    refine h _ _ runsOf_nodup fun r hr => ?_
    obtain ⟨run, hrun⟩ := Option.ne_none_iff_exists'.mp (hscoped r hr)
    exact ⟨run, mem_runsOf.mpr ⟨r, hr, hrun⟩, hrun⟩
  intro runs
  induction runs with
  | nil =>
    intro rows _ hrows
    cases rows with
    | nil => simp
    | cons r =>
      obtain ⟨run, hrun, -⟩ := hrows r List.mem_cons_self
      exact nomatch hrun
  | cons run runs ih =>
    intro rows hnodup hrows
    obtain ⟨hnot, hnodup⟩ := List.nodup_cons.mp hnodup
    -- the rows of the other runs
    have hrest : ∀ other ∈ runs, ofRun other (rows.filter fun r => !decide (r.runId = some run)) =
      ofRun other rows := by
      intro other hother
      rw [ofRun, List.filter_filter]
      apply List.filter_congr
      intro r _
      by_cases hr : r.runId = some other
      · have hne : other ≠ run := fun heq => hnot (heq ▸ hother)
        simp [hr, hne]
      · simp [hr]
    have hothers := ih (rows.filter fun r => !decide (r.runId = some run)) hnodup fun r hr => by
      obtain ⟨hr, hne⟩ := List.mem_filter.mp hr
      obtain ⟨other, hother, hrun⟩ := hrows r hr
      rcases List.mem_cons.mp hother with rfl | hother
      · simp [hrun] at hne
      · exact ⟨other, hother, hrun⟩
    rw [List.flatMap_cons]
    refine ((List.filter_append_perm (fun r => decide (r.runId = some run)) rows).symm).trans ?_
    refine List.Perm.append_left _ (hothers.trans (List.Perm.of_eq ?_))
    exact List.flatMap_congr fun other hother => hrest other hother

/-- **The records of a list are those of its runs, one run after the other.** -/
theorem records_perm (hscoped : ∀ r ∈ rows, r.runId ≠ none) : (records field rows).Perm
    ((runsOf (candidates field rows)).flatMap fun run => records field (ofRun run rows)) := by
  have hcandidates : ∀ r ∈ candidates field rows, r.runId ≠ none := fun r hr => hscoped r (mem_candidates.mp hr).1
  simp only [records_ofRun]
  by_cases hfield : field = .estimatedCostUSD
  · subst hfield
    have hunscoped : (costItems rows).filter (·.runId.isNone) = [] := by
      rw [List.filter_eq_nil_iff]
      intro r hr hnone
      exact hcandidates r hr (by simpa using hnone)
    show (costRecords rows).Perm _
    simp only [costRecords, hunscoped, List.nil_append, if_true]
    exact List.Perm.refl _
  · simp only [records_of_ne hfield, if_neg hfield]
    exact perm_flatMap_ofRun hcandidates

/-! ## Sums -/

theorem sumOf_cons : sumOf (r :: rows) = r.value.getD 0 + sumOf rows := by
  cases hvalue : r.value with
  | none => simp [sumOf, hvalue]
  | some => simp [sumOf, hvalue]

theorem sumOf_append : sumOf (rows ++ rows') = sumOf rows + sumOf rows' := by
  rw [sumOf, List.filterMap_append, List.sum_append]
  rfl

theorem sumOf_flatMap (runs : List String) (own : String → List UsageRecord) :
    sumOf (runs.flatMap own) = (runs.map fun run => sumOf (own run)).sum := by
  induction runs with
  | nil => rfl
  | cons run runs ih => rw [List.flatMap_cons, sumOf_append, ih, List.map_cons, List.sum_cons]

theorem sumOf_perm (h : rows.Perm rows') : sumOf rows = sumOf rows' := (h.filterMap _).sum_eq

theorem truncate_intCast (n : Int) : truncate n = n := by simp [truncate]

def Integral (rows : List UsageRecord) : Prop := ∀ r ∈ rows, ∀ v, r.value = some v → ∃ n : Int, v = n

theorem Integral.sumOf (h : Integral rows) : ∃ n : Int, sumOf rows = n := by
  induction rows with
  | nil => exact ⟨0, rfl⟩
  | cons r rows ih =>
    obtain ⟨n, hn⟩ := ih fun r' hr' => h r' (List.mem_cons_of_mem _ hr')
    rw [sumOf_cons, hn]
    cases hvalue : r.value with
    | none => exact ⟨n, by simp⟩
    | some v =>
      obtain ⟨m, rfl⟩ := h r List.mem_cons_self v hvalue
      exact ⟨m + n, by simp⟩

def IntegralTokens (rows : List UsageRecord) : Prop :=
  Integral (rows.filter fun r => r.metric ∉ UsageField.estimatedCostUSD.names)

theorem names_disjoint (hfield : field ≠ .estimatedCostUSD) (h : r.metric ∈ field.names) :
    r.metric ∉ UsageField.estimatedCostUSD.names := by
  cases field with
  | estimatedCostUSD => exact absurd rfl hfield
  | _ =>
    obtain hmetric := List.mem_singleton.mp h
    rw [hmetric]
    decide

theorem IntegralTokens.total (h : IntegralTokens rows) :
    total field (records field rows) = sumOf (records field rows) := by
  unfold Api.total
  split
  · rfl
  · next hfield =>
    have hintegral : Integral (records field rows) := by
      intro r hr v hv
      obtain ⟨hrow, hname⟩ := mem_records hr
      exact h r (List.mem_filter.mpr ⟨hrow, by simpa using names_disjoint hfield hname⟩) v hv
    obtain ⟨n, hn⟩ := hintegral.sumOf
    rw [hn, truncate_intCast]

theorem IntegralTokens.ofRun (h : IntegralTokens rows) : IntegralTokens (ofRun run rows) := by
  intro r hr
  obtain ⟨hrow, hname⟩ := List.mem_filter.mp hr
  exact h r (List.mem_filter.mpr ⟨List.mem_of_mem_filter hrow, hname⟩)

/-! ## The order of the rows -/

theorem preferred_perm (h : rows.Perm rows') : (preferred rows).Perm (preferred rows') := by
  have hcanonical : (ofMetric "estimatedCostUSD" rows).Perm (ofMetric "estimatedCostUSD" rows') := h.filter _
  have hnil : ofMetric "estimatedCostUSD" rows = [] ↔ ofMetric "estimatedCostUSD" rows' = [] := by
    rw [← List.length_eq_zero_iff, hcanonical.length_eq, List.length_eq_zero_iff]
  simp only [preferred, hnil]
  split
  · exact h
  · exact hcanonical

theorem runsOf_perm (h : rows.Perm rows') : (runsOf rows).Perm (runsOf rows') :=
  (List.perm_ext_iff_of_nodup runsOf_nodup runsOf_nodup).mpr fun run => by simp only [mem_runsOf, h.mem_iff]

theorem records_perm_of_perm (h : rows.Perm rows') : (records field rows).Perm (records field rows') := by
  by_cases hfield : field = .estimatedCostUSD
  · subst hfield
    have hitems : (costItems rows).Perm (costItems rows') := (h.filter _).append (h.filter _)
    refine (hitems.filter _).append ?_
    exact ((runsOf_perm hitems).flatMap_right _).trans
      (List.Perm.flatMap_left _ fun run _ => preferred_perm (hitems.filter _))
  · rw [records_of_ne hfield, records_of_ne hfield]
    cases field with
    | estimatedCostUSD => exact absurd rfl hfield
    | _ => exact h.filter _

theorem usage_perm (h : rows.Perm rows') {v : Rat} (hv : usage rows field = .known v) :
    usage rows' field = .known v := by
  obtain ⟨hne, hall, rfl⟩ := usage_known_iff.mp hv
  have hrecords : (records field rows).Perm (records field rows') := records_perm_of_perm h
  refine usage_known_iff.mpr ⟨fun hnil => ?_, fun r hr => hall r (hrecords.mem_iff.mpr hr), ?_⟩
  · rw [hnil] at hrecords
    exact hne hrecords.eq_nil
  · rw [total, total, sumOf_perm hrecords]

/-! ## Usage over the runs -/

def HasRecord (field : UsageField) (rows : List UsageRecord) (run : String) : Prop :=
  ∃ r ∈ rows, r.runId = some run ∧ r.metric ∈ field.names

theorem mem_runsOf_candidates : run ∈ runsOf (candidates field rows) ↔ HasRecord field rows run := by
  simp only [mem_runsOf, mem_candidates, HasRecord, and_assoc]
  exact exists_congr fun r => and_congr_right fun _ => and_comm

theorem records_ofRun_ne_nil (h : HasRecord field rows run) : records field (ofRun run rows) ≠ [] := by
  obtain ⟨r, hr, hrun, hname⟩ := h
  have hmem : r ∈ Api.ofRun run (candidates field rows) :=
    List.mem_filter.mpr ⟨mem_candidates.mpr ⟨hr, hname⟩, by simpa using hrun⟩
  rw [records_ofRun]
  split
  · intro hnil
    rw [preferred_eq_nil hnil] at hmem
    exact nomatch hmem
  · exact List.ne_nil_of_mem hmem

theorem records_cost : records .estimatedCostUSD (ofRun run rows) =
    if ofMetric "estimatedCostUSD" (ofRun run rows) = [] then ofMetric "costUSD" (ofRun run rows)
    else ofMetric "estimatedCostUSD" (ofRun run rows) := by
  rw [records_ofRun, if_pos rfl, ofRun_candidates]
  generalize ofRun run rows = own
  have hestablished : ofMetric "estimatedCostUSD" (costItems own) = ofMetric "estimatedCostUSD" own := by
    have hother : ofMetric "estimatedCostUSD" (ofMetric "costUSD" own) = [] := by
      rw [ofMetric, List.filter_eq_nil_iff]
      intro r hr hmetric
      have hname := (List.mem_filter.mp hr).2
      simp only [decide_eq_true_eq] at hmetric hname
      rw [hmetric] at hname
      exact absurd hname (by decide)
    have hsame : ofMetric "estimatedCostUSD" (ofMetric "estimatedCostUSD" own) = ofMetric "estimatedCostUSD" own := by
      simp [ofMetric]
    calc ofMetric "estimatedCostUSD" (costItems own)
        = ofMetric "estimatedCostUSD" (ofMetric "estimatedCostUSD" own) ++
            ofMetric "estimatedCostUSD" (ofMetric "costUSD" own) := List.filter_append _ _
      _ = ofMetric "estimatedCostUSD" own := by rw [hsame, hother, List.append_nil]
  show preferred (costItems own) = _
  rw [preferred, hestablished]
  split
  · next hnil => rw [costItems, hnil, List.nil_append]
  · rfl

/-- **Usage is additive over the runs.**  A field is known exactly when some run has a record for it and it is known for
every run that has one; its value is the sum of theirs, of a cost under one name for each run; and neither depends on
the order of the rows. -/
theorem usage_additive (rows : List UsageRecord) (hscoped : ∀ r ∈ rows, r.runId ≠ none) (htokens : IntegralTokens rows)
    (field : UsageField) :
    ((∃ v, usage rows field = .known v) ↔ (∃ run, HasRecord field rows run) ∧
      ∀ run, HasRecord field rows run → ∃ v, usage (ofRun run rows) field = .known v) ∧
    (∀ v, usage rows field = .known v → ∃ (runs : List String) (amount : String → Rat),
      runs.Nodup ∧ (∀ run, run ∈ runs ↔ HasRecord field rows run) ∧
      (∀ run ∈ runs, usage (ofRun run rows) field = .known (amount run)) ∧ v = (runs.map amount).sum) ∧
    (∀ run v, usage (ofRun run rows) .estimatedCostUSD = .known v →
      v = sumOf (if ofMetric "estimatedCostUSD" (ofRun run rows) = [] then ofMetric "costUSD" (ofRun run rows)
        else ofMetric "estimatedCostUSD" (ofRun run rows))) ∧
    (∀ rows', rows.Perm rows' → ∀ v, usage rows field = .known v ↔ usage rows' field = .known v) := by
  have hperm : (records field rows).Perm _ := records_perm hscoped
  have hmem : ∀ r, r ∈ records field rows ↔ ∃ run, HasRecord field rows run ∧ r ∈ records field (ofRun run rows) := by
    intro r
    rw [hperm.mem_iff, List.mem_flatMap]
    simp only [mem_runsOf_candidates]
  refine ⟨?_, fun v hv => ?_, fun run v hv => ?_, fun rows' h v => ⟨usage_perm h, usage_perm h.symm⟩⟩
  · simp only [known_iff]
    constructor
    · rintro ⟨hne, hall⟩
      obtain ⟨r, hr⟩ := List.exists_mem_of_ne_nil _ hne
      obtain ⟨run, hrun, -⟩ := (hmem r).mp hr
      exact ⟨⟨run, hrun⟩, fun run hrun =>
        ⟨records_ofRun_ne_nil hrun, fun r hr => hall r ((hmem r).mpr ⟨run, hrun, hr⟩)⟩⟩
    · rintro ⟨⟨run, hrun⟩, hruns⟩
      obtain ⟨r, hr⟩ := List.exists_mem_of_ne_nil _ (hruns run hrun).1
      refine ⟨List.ne_nil_of_mem ((hmem r).mpr ⟨run, hrun, hr⟩), fun r hr => ?_⟩
      obtain ⟨run, hrun, hr⟩ := (hmem r).mp hr
      exact (hruns run hrun).2 r hr
  · obtain ⟨-, hall, rfl⟩ := usage_known_iff.mp hv
    refine ⟨runsOf (candidates field rows), fun run => sumOf (records field (ofRun run rows)), runsOf_nodup,
      fun run => mem_runsOf_candidates, fun run hrun => ?_, ?_⟩
    · have hrun := mem_runsOf_candidates.mp hrun
      exact usage_known_iff.mpr ⟨records_ofRun_ne_nil hrun, fun r hr => hall r ((hmem r).mpr ⟨run, hrun, hr⟩),
        htokens.ofRun.total.symm⟩
    · rw [htokens.total, sumOf_perm hperm, sumOf_flatMap]
  · obtain ⟨-, -, rfl⟩ := usage_known_iff.mp hv
    rw [htokens.ofRun.total, records_cost]

/-! ## Two runs -/

/-- One run under the two names of a cost, and one under the other name only. -/
def twoRuns : List UsageRecord := [
  ⟨"costUSD", some "run-1", some (1 / 100), none⟩,
  ⟨"inputTokens", some "run-1", some 12, none⟩,
  ⟨"estimatedCostUSD", some "run-2", some (2 / 100), none⟩,
  ⟨"costUSD", some "run-2", some (999 / 100), none⟩]

theorem usage_additive_twoRuns : usage twoRuns .estimatedCostUSD = .known (3 / 100) ↔
    usage twoRuns.reverse .estimatedCostUSD = .known (3 / 100) := by
  refine (usage_additive twoRuns (by decide) ?_ .estimatedCostUSD).2.2.2 _ (List.reverse_perm _).symm (3 / 100)
  intro r hr v hv
  have hr' : r ∈ [(⟨"inputTokens", some "run-1", some 12, none⟩ : UsageRecord)] := hr
  obtain rfl := List.mem_singleton.mp hr'
  obtain rfl := Option.some.inj hv
  exact ⟨12, rfl⟩

example : usage twoRuns .estimatedCostUSD = .known (3 / 100) := by decide +kernel

end AgentFabric.Api
