import RecordRepair.Proofs.Record.Failures
import RecordRepair.Proofs.Record.Outcome
import RecordRepair.Record.Batch

/-! # What a batch says

The classes of a batch are repaired on their own, and the counts of a batch are read off its results
alone.  They agree with the classes themselves.

* `repairAll_select`, `repairAll_append`: a batch of rearranged classes is the rearranged batch, and
  a batch of two lists is made of the batches of both.
* `Batch.Describes`: the counts of a batch are those of a comparison of the classes.
* `repairAll_describes`: a batch is made of the single repairs, and it describes them. -/

namespace RecordRepair

variable {settings : Settings} {lookup : Lookup} {c : ClassFile} {classes : List ClassFile}
  {failure : Failure}

namespace Batch

/-- The results and the classes at some positions, in the order in which these are listed. -/
def select (batch : Batch) (order : List Nat) : Batch where
  results := order.filterMap fun i => batch.results[i]?
  classes := order.filterMap fun i => batch.classes[i]?

/-- Two batches, one after the other. -/
def append (first second : Batch) : Batch where
  results := first.results ++ second.results
  classes := first.classes ++ second.classes

/-- A batch says how its classes differ from what they were before. -/
structure Describes (batch : Batch) (before : List ClassFile) : Prop where
  results_length : batch.results.length = before.length
  classes_length : batch.classes.length = before.length
  records : batch.records = before.countP fun c => c.superclass == some recordBase
  changed : batch.changed = (before.zip batch.classes).countP fun pair => pair.1 != pair.2
  /-- A failure names the class at its position, which is left as it was. -/
  failure : ∀ (i : Nat) (failure : Failure), batch.results[i]? = some (.error failure) →
    ∃ c, before[i]? = some c ∧ batch.classes[i]? = some c ∧ failure.className = c.name
  isSuccess : batch.isSuccess = true ↔ ∀ result ∈ batch.results, ∃ outcome, result = .ok outcome

theorem isSuccess_eq_true_iff {batch : Batch} :
    batch.isSuccess = true ↔ ∀ result ∈ batch.results, ∃ outcome, result = .ok outcome := by
  rw [isSuccess, failures, List.isEmpty_iff, List.filterMap_eq_nil_iff]
  refine forall₂_congr fun result _ => ?_
  cases result with
  | ok outcome => exact ⟨fun _ => ⟨outcome, rfl⟩, fun _ => rfl⟩
  | error failure => simp [failure?]

end Batch

/-! ### Single repairs -/

/-- A result tells whether the class is a record, since nothing else fails. -/
theorem Batch.isRecord_repair :
    isRecord ((repair settings lookup c).map Prod.fst) = c.isRecord := by
  cases h : repair settings lookup c with
  | error failure => exact (isRecord_of_repair_eq_error h).symm
  | ok repaired => exact isRecord_of_repair h

theorem Batch.isChange_repair : isChange ((repair settings lookup c).map Prod.fst) =
    (c != afterRepair c (repair settings lookup c)) := by
  cases h : repair settings lookup c with
  | error failure => exact (bne_self_eq_false c).symm
  | ok repaired =>
      have hiff : repaired.1.isUnchanged = true ↔ repaired.2 = c := isUnchanged_iff_of_repair h
      have hchange : isChange (Except.map Prod.fst (.ok repaired : Except Failure _)) =
          !repaired.1.isUnchanged := rfl
      have hafter : afterRepair c (.ok repaired) = repaired.2 := rfl
      rw [hchange, hafter, Bool.eq_iff_iff, bne_iff_ne, ne_comm, ne_eq, ← hiff, Bool.not_eq_true',
        Bool.not_eq_true]

theorem repair_eq_error_iff : (repair settings lookup c).map Prod.fst = .error failure ↔
    repair settings lookup c = .error failure := by
  cases repair settings lookup c <;> simp [Except.map]

/-! ### Batches -/

theorem repairAll_select (classes : List ClassFile) (order : List Nat) :
    repairAll settings lookup (order.filterMap fun i => classes[i]?) =
      (repairAll settings lookup classes).select order := by
  simp only [repairAll, Batch.select, List.map_filterMap, List.getElem?_map]

theorem repairAll_append (first second : List ClassFile) :
    repairAll settings lookup (first ++ second) =
      (repairAll settings lookup first).append (repairAll settings lookup second) := by
  simp only [repairAll, Batch.append, List.map_append]

theorem records_repairAll : (repairAll settings lookup classes).records =
    classes.countP fun c => c.superclass == some recordBase := by
  rw [Batch.records, repairAll, List.countP_map]
  exact List.countP_congr fun c _ => by rw [Function.comp, Batch.isRecord_repair]; rfl

theorem changed_repairAll : (repairAll settings lookup classes).changed =
    (classes.zip (repairAll settings lookup classes).classes).countP
      fun pair => pair.1 != pair.2 := by
  rw [Batch.changed, repairAll, countP_zip_map, List.countP_map]
  exact List.countP_congr fun c _ => by rw [Function.comp, Batch.isChange_repair]

theorem failures_repairAll : (repairAll settings lookup classes).failures =
    classes.filterMap fun c => match repair settings lookup c with
      | .error failure => some failure
      | .ok _ => none := by
  rw [Batch.failures, repairAll, List.filterMap_map]
  congr 1
  funext c
  rw [Function.comp]
  cases repair settings lookup c <;> rfl

theorem exists_of_failure {i : Nat}
    (h : (repairAll settings lookup classes).results[i]? = some (.error failure)) :
    ∃ c, classes[i]? = some c ∧ (repairAll settings lookup classes).classes[i]? = some c ∧
      failure.className = c.name := by
  rw [repairAll, List.getElem?_map] at h
  obtain ⟨c, hc, hr⟩ := Option.map_eq_some_iff.1 h
  have hfail := repair_eq_error_iff.1 hr
  refine ⟨c, hc, ?_, failsFor_repair failure hfail⟩
  rw [repairAll, List.getElem?_map, hc, Option.map_some, hfail]
  rfl

/-- **The classes of a batch are repaired on their own, and the batch counts them right.**  Each
result and each class is that of a repair of this class alone, so that rearranged classes give
rearranged results, and two lists may be repaired apart.  The counts of records and of changes are
those of a comparison of the classes, and the failures are those of the single repairs in order. -/
theorem repairAll_describes (settings : Settings) (lookup : Lookup) (classes : List ClassFile) :
    (∀ i : Nat, (repairAll settings lookup classes).results[i]? =
        classes[i]?.map fun c => (repair settings lookup c).map Prod.fst) ∧
      (∀ i : Nat, (repairAll settings lookup classes).classes[i]? =
        classes[i]?.map fun c => afterRepair c (repair settings lookup c)) ∧
      (∀ order : List Nat, repairAll settings lookup (order.filterMap fun i => classes[i]?) =
        (repairAll settings lookup classes).select order) ∧
      (∀ others, repairAll settings lookup (classes ++ others) =
        (repairAll settings lookup classes).append (repairAll settings lookup others)) ∧
      (repairAll settings lookup classes).failures =
        (classes.filterMap fun c => match repair settings lookup c with
          | .error failure => some failure
          | .ok _ => none) ∧
      (repairAll settings lookup classes).Describes classes := by
  refine ⟨fun i => ?_, fun i => ?_, repairAll_select classes, repairAll_append classes,
    failures_repairAll, ⟨List.length_map _, List.length_map _, records_repairAll, changed_repairAll,
      fun i failure => exists_of_failure, Batch.isSuccess_eq_true_iff⟩⟩
  · rw [repairAll, List.getElem?_map]
  · rw [repairAll, List.getElem?_map]

end RecordRepair
