import RecordRepair.Proofs.Signature.Derivation
import RecordRepair.Proofs.Signature.Rewriting

/-! # Reading and writing the grammar

The well-formed trees are the grammar of signatures.  They decide what a walk accepts, and which
lists of events are written as a text that is read back.

* `walk_accepts_iff`: a text is accepted exactly if a well-formed tree stands for it.  The side
  condition on type parameters is the one of a reader that sees a single character: a class bound
  may be left out only where the text does not go on like a bound (`NoBound`).
* `lists_iff_exists_text`: the events of the well-formed trees are exactly the lists of events whose
  text is read as the same list. -/

namespace RecordRepair.Signature

variable {kind : Kind} {text : String} {es : List Event}

/-! ### What is accepted -/

theorem FormalTree.areWellFormed_iff {formals : List FormalTree} :
    areWellFormed formals = true ↔ (∀ formal ∈ formals, formal.isWellFormed = true) ∧
      ∀ formal rest, formal :: rest <:+ formals → formal.classBound = none →
        NoBound (formal.interfaceChars ++ (rest.flatMap chars ++ ['>'])) := by
  induction formals with
  | nil => simp [areWellFormed]
  | cons formal rest ih =>
      rw [areWellFormed_cons_iff, ih, List.forall_mem_cons]
      constructor
      · rintro ⟨hf, ⟨hall, hrest⟩, hhead⟩
        refine ⟨⟨hf, hall⟩, fun formal' rest' hs => ?_⟩
        rcases List.suffix_cons_iff.1 hs with he | hs
        · obtain ⟨rfl, rfl⟩ := List.cons.inj he
          exact hhead
        · exact hrest formal' rest' hs
      · rintro ⟨⟨hf, hall⟩, hsuffix⟩
        refine ⟨hf, ⟨hall, fun formal' rest' hs => ?_⟩, hsuffix formal rest List.suffix_rfl⟩
        exact hsuffix formal' rest' (hs.trans (List.suffix_cons formal rest))

/-- **A walk accepts exactly its grammar.**  A text is walked without an error if and only if it is
the text of a well-formed tree; there, a class bound may be left out only if the next character is
none of `L`, `T` and `[`. -/
theorem walk_accepts_iff (kind : Kind) (text : String) :
    ((walk kind text).error = none ↔ Tree.Writes kind text.toList) ∧
      ∀ formals, FormalTree.areWellFormed formals = true ↔
        (∀ formal ∈ formals, formal.isWellFormed = true) ∧
          ∀ formal rest, formal :: rest <:+ formals → formal.classBound = none →
            NoBound (formal.interfaceChars ++ (rest.flatMap FormalTree.chars ++ ['>'])) := by
  refine ⟨⟨?_, ?_⟩, fun formals => FormalTree.areWellFormed_iff⟩
  · intro h
    obtain ⟨tree, hk, hw, hs, -⟩ := (completes_of_walk h).exists_tree
    exact ⟨tree, hk, hw, hs⟩
  · rintro ⟨tree, rfl, hw, hs⟩
    have ht : String.ofList tree.chars = text := by
      rw [hs, String.ofList_toList]
    have hwalk := Tree.walk_eq hw
    rw [ht] at hwalk
    rw [hwalk]

-- behind `A:`, the name of the second type parameter is taken for a bound
example : (walk .classKind "<A:TB:Lp/I;>Lp/R;").error.isSome = true := by rfl

/-! ### What is written and read back -/

/-- The events of a well-formed tree. -/
def Tree.Lists (kind : Kind) (es : List Event) : Prop :=
  ∃ tree : Tree, tree.kind = kind ∧ tree.isWellFormed = true ∧ tree.events = es

/-- **Walking what was printed gives the events back.**  The events of a well-formed tree are
printed, and the walk of the text gives exactly these events and no error.  There are no other
events of which this is so. -/
theorem lists_iff_exists_text (kind : Kind) (es : List Event) :
    Tree.Lists kind es ↔ ∃ text, printAll es = .ok text ∧ walk kind text = ⟨es, none⟩ := by
  constructor
  · rintro ⟨tree, rfl, hw, rfl⟩
    have hwalk := Tree.walk_eq hw
    exact ⟨String.ofList tree.chars, printAll_of_completes (walk_eq_iff.1 hwalk), hwalk⟩
  · rintro ⟨text, -, hwalk⟩
    obtain ⟨tree, hk, hw, -, he⟩ := (walk_eq_iff.1 hwalk).exists_tree
    exact ⟨tree, hk, hw, he⟩

end RecordRepair.Signature
