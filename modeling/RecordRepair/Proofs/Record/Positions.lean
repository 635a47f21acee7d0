import RecordRepair.Record.Repair

/-! # The fields under a plan

A plan names the fields to be made private by their positions, and passes over those that are
private already.  It comes to the same as making every field private that backs a component.

* `foldl_modify_positions`: changing the elements at the positions of a test one after the other
  changes just those that pass it.
* `Field.restore`: a field that backs a component, made private whether or not it is so already.
* `Plan.newFields_eq_map`: so the plan of a repair restores each field, if the settings ask for it.
* `Plan.length_exposedFields`: it names as many fields as change by that.
* `Plan.map_newFields`: what does not depend on the visibility of a field is the same under any
  plan. -/

namespace RecordRepair

variable {α β : Type} {test : α → Bool} {f : α → α} {settings : Settings} {c : ClassFile}
  {plan : Plan} {field : Field}

/-! ### Positions -/

theorem positions_cons (a : α) (list : List α) : positions test (a :: list) =
    (if test a then [0] else []) ++ (positions test list).map (· + 1) := by
  have hrest : ((list.zipIdx 1).filter fun pair => test pair.1).map Prod.snd =
      (positions test list).map (· + 1) := by
    rw [positions, List.zipIdx_succ, List.filter_map, List.map_map, List.map_map]
    rfl
  rw [positions, List.zipIdx_cons, List.filter_cons, Nat.zero_add]
  split
  · rw [List.map_cons, hrest, List.singleton_append]
  · rw [hrest, List.nil_append]

theorem length_positions (test : α → Bool) (list : List α) :
    (positions test list).length = list.countP test := by
  induction list with
  | nil => rfl
  | cons a list ih =>
      rw [positions_cons, List.length_append, List.length_map, ih, List.countP_cons, Nat.add_comm]
      split <;> rfl

theorem foldl_modify_succ (places : List Nat) (a : α) (list : List α) :
    (places.map (· + 1)).foldl (fun l i => l.modify i f) (a :: list) =
      a :: places.foldl (fun l i => l.modify i f) list := by
  induction places generalizing list with
  | nil => rfl
  | cons i places ih =>
      rw [List.map_cons, List.foldl_cons, List.modify_succ_cons, ih, List.foldl_cons]

/-- Changes at the positions of a test are changes of the elements that pass it. -/
theorem foldl_modify_positions (test : α → Bool) (f : α → α) (list : List α) :
    (positions test list).foldl (fun l i => l.modify i f) list =
      list.map fun a => if test a then f a else a := by
  induction list with
  | nil => rfl
  | cons a list ih =>
      rw [positions_cons, List.foldl_append, List.map_cons]
      split
      · rw [List.foldl_cons, List.foldl_nil, List.modify_zero_cons, foldl_modify_succ, ih]
      · rw [List.foldl_nil, foldl_modify_succ, ih]

theorem map_modify {g : α → β} (hg : ∀ a, g (f a) = g a) (list : List α) (i : Nat) :
    (list.modify i f).map g = list.map g := by
  induction list generalizing i with
  | nil => rw [List.modify_nil]
  | cons a list ih =>
      cases i with
      | zero => rw [List.modify_zero_cons, List.map_cons, hg, List.map_cons]
      | succ i => rw [List.modify_succ_cons, List.map_cons, ih, List.map_cons]

/-! ### Restored fields -/

namespace Field

/-- A field that backs a component, with its visibility restored. -/
def restore (field : Field) : Field :=
  if field.access.isFinalInstance then field.makePrivate else field

theorem isExposed_eq (field : Field) :
    field.isExposed = (field.restore.access != field.access) := by
  rw [isExposed, restore]
  cases field.access.isFinalInstance with
  | false => simp
  | true => rfl

theorem restore_eq (field : Field) :
    field.restore = if field.isExposed then field.makePrivate else field := by
  split
  · next h => rw [restore, if_pos (Bool.and_eq_true_iff.1 h).1]
  · next h =>
      -- a field that backs a component without being exposed is private already
      have haccess : field.restore.access = field.access := by
        simpa [isExposed_eq] using h
      rw [restore] at haccess ⊢
      split at haccess
      · next hf =>
          have hprivate : field.access.makePrivate = field.access := haccess
          rw [if_pos hf, makePrivate, hprivate]
      · next hf => rw [if_neg hf]

end Field

/-- A field as a repair leaves it. -/
def Settings.newField (settings : Settings) (field : Field) : Field :=
  if settings.patchComponents && settings.restorePrivateFields then field.restore else field

namespace Settings

theorem newField_eq (settings : Settings) (field : Field) :
    settings.newField field = { field with access := (settings.newField field).access } := by
  rw [newField]
  split
  · rw [Field.restore]
    split <;> rfl
  · rfl

theorem newField_eq_iff : settings.newField field = field ↔
    (settings.newField field).access = field.access := by
  refine ⟨congrArg Field.access, fun h => ?_⟩
  rw [newField_eq, h]

end Settings

namespace Plan

/-- **The plan of a repair restores each field, if the settings ask for it.** -/
theorem newFields_eq_map (hp : plan.privateFields = exposedFields settings c) :
    plan.newFields c = c.fields.map settings.newField := by
  rw [newFields, hp, exposedFields]
  split
  · next hs =>
      rw [foldl_modify_positions]
      exact List.map_congr_left fun field _ => by
        rw [Settings.newField, if_pos hs, Field.restore_eq]
  · next hs =>
      refine (List.map_id c.fields).symm.trans (List.map_congr_left fun field _ => ?_)
      rw [Settings.newField, if_neg hs]
      rfl

/-- A plan names the fields that it changes, and no others. -/
theorem length_exposedFields (settings : Settings) (c : ClassFile) :
    (exposedFields settings c).length =
      c.fields.countP fun field => (settings.newField field).access != field.access := by
  rw [exposedFields]
  simp only [Settings.newField]
  split
  · rw [length_positions]
    exact List.countP_congr fun field _ => by rw [Field.isExposed_eq]
  · simp

theorem map_newFields {g : Field → β} (hg : ∀ field, g field.makePrivate = g field) (plan : Plan)
    (c : ClassFile) : (plan.newFields c).map g = c.fields.map g := by
  rw [newFields]
  generalize c.fields = fields
  induction plan.privateFields generalizing fields with
  | nil => rfl
  | cons position places ih => rw [List.foldl_cons, ih, map_modify hg]

end Plan

end RecordRepair
