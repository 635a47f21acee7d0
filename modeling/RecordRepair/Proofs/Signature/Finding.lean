import RecordRepair.Proofs.Signature.TreeReading
import RecordRepair.Proofs.Signature.Uses

/-! # Finding type variables in the text

The place of a type variable is made up from the events before it.  Here it is compared with the
text before the variable: the brackets that are open there and the `[` directly before it.

* `IsClosed`: a text closes the lists that it opens.  So does every type.
* `Place.Fits`: the structures that are open at a place are told by the `<` that are open in the
  text before it, and the array dimensions by the `[` at the end of that text.
* `Finds m place seen s es Q`: the text `s` is read from the move `m` on, its events are `es`, and
  each reference among them is found in the text.  Up to there the events ahead of the reference are
  read, and `Q` holds of the text and the place.
* `TypeTree.finds`, `ArgumentTrees.finds` and `InnerTrees.finds` follow the recursion of the trees:
  wherever a variable stands in a type, the place fits. -/

namespace RecordRepair.Signature

variable {k left : List Goal} {m m' : Option Char → Move} {s t seen : List Char}
  {es fs before : List Event} {place next : Place} {gap gap' : Nat}
  {Q Q' : List Char → String → Place → Prop}

/-! ### Texts and their brackets -/

/-- A text ends in so many `[` and no more. -/
def EndsInArrays (n : Nat) (s : List Char) : Prop :=
  ∃ front, s = front ++ List.replicate n '[' ∧ front.getLast? ≠ some '['

theorem endsInArrays_zero_iff : EndsInArrays 0 s ↔ s.getLast? ≠ some '[' := by
  constructor
  · rintro ⟨front, rfl, hf⟩
    rw [List.replicate_zero, List.append_nil]
    exact hf
  · intro h
    exact ⟨s, (List.append_nil s).symm, h⟩

theorem EndsInArrays.push {n : Nat} (h : EndsInArrays n s) : EndsInArrays (n + 1) (s ++ ['[']) := by
  obtain ⟨front, rfl, hf⟩ := h
  exact ⟨front, by rw [List.replicate_succ', List.append_assoc], hf⟩

/-- What is written behind a text decides how it ends, if anything is. -/
theorem endsInArrays_append (ht : t.getLast? ≠ some '[') (h : t ≠ [] ∨ EndsInArrays 0 s) :
    EndsInArrays 0 (s ++ t) := by
  rw [endsInArrays_zero_iff, List.getLast?_append]
  cases hl : t.getLast? with
  | none =>
      have ht' : t = [] := List.getLast?_eq_none_iff.1 hl
      exact endsInArrays_zero_iff.1 (h.resolve_left fun hne => hne ht')
  | some c => exact fun hc => ht (hl.trans hc)

/-- As many `<` as `>` are in a text, and it does not end in a `[`. -/
structure IsClosed (s : List Char) : Prop where
  balanced : s.count '<' = s.count '>'
  plain : s.getLast? ≠ some '['

namespace IsClosed

theorem nil : IsClosed [] := ⟨rfl, by simp⟩

theorem append (hs : IsClosed s) (ht : IsClosed t) : IsClosed (s ++ t) where
  balanced := by rw [List.count_append, List.count_append, hs.balanced, ht.balanced]
  plain := by
    rw [← endsInArrays_zero_iff]
    exact endsInArrays_append ht.plain (.inr (endsInArrays_zero_iff.2 hs.plain))

theorem single {c : Char} (h : c ≠ '<' ∧ c ≠ '>' ∧ c ≠ '[') : IsClosed [c] := by
  obtain ⟨ho, hc, ha⟩ := h
  exact ⟨by simp [ho, hc], by simpa using ha⟩

theorem cons {c : Char} (h : c ≠ '<' ∧ c ≠ '>' ∧ c ≠ '[') (hs : IsClosed s) : IsClosed (c :: s) :=
  (single h).append hs

theorem concat {c : Char} (hs : IsClosed s) (h : c ≠ '<' ∧ c ≠ '>' ∧ c ≠ '[') :
    IsClosed (s ++ [c]) := hs.append (single h)

theorem list (h : IsClosed s) : IsClosed ('<' :: (s ++ ['>'])) where
  balanced := by simp [h.balanced]
  plain := by
    rw [← List.cons_append, List.getLast?_concat]
    decide

theorem array (h : IsClosed s) (hne : s ≠ []) : IsClosed ('[' :: s) where
  balanced := by simpa using h.balanced
  plain := by
    rw [← List.singleton_append, ← endsInArrays_zero_iff]
    exact endsInArrays_append h.plain (.inl hne)

theorem flatMap {α : Type} {f : α → List Char} {list : List α} (h : ∀ a ∈ list, IsClosed (f a)) :
    IsClosed (list.flatMap f) := by
  induction list with
  | nil => exact nil
  | cons a list ih =>
      rw [List.flatMap_cons]
      exact (h a List.mem_cons_self).append (ih fun b hb => h b (List.mem_cons_of_mem a hb))

theorem ofName {ends : Char → Bool} {name : String} (h : isName ends name = true)
    (hends : ∀ c ∈ ['<', '>', '['], ends c = true) : IsClosed name.toList := by
  have hnot : ∀ c ∈ ['<', '>', '['], c ∉ name.toList := by
    intro c hc hm
    have hfalse := (isName_iff.1 h).2 c hm
    rw [hends c hc] at hfalse
    cases hfalse
  refine ⟨?_, fun hl => hnot '[' (by decide) (List.mem_of_getLast? hl)⟩
  rw [List.count_eq_zero_of_not_mem (hnot '<' (by decide)),
    List.count_eq_zero_of_not_mem (hnot '>' (by decide))]

theorem className {name : String} (h : isName endsClassName name = true) : IsClosed name.toList :=
  ofName h (by simp [endsClassName])

theorem variableName {name : String} (h : isName endsName name = true) : IsClosed name.toList :=
  ofName h (by simp [endsName, endsClassName])

end IsClosed

theorem TypeTree.chars_ne_nil (type : TypeTree) : type.chars ≠ [] := by
  cases type <;> exact List.cons_ne_nil _ _

theorem Wildcard.isClosed_marker (wildcard : Wildcard) : IsClosed wildcard.marker?.toList := by
  cases wildcard with
  | exact => exact .nil
  | extending => exact .single (by decide)
  | super => exact .single (by decide)

theorem ArgumentTrees.isClosed_list {arguments : ArgumentTrees} (h : IsClosed arguments.chars) :
    IsClosed arguments.listChars := by
  by_cases hn : arguments = .nil
  · rw [hn]
    exact .nil
  · rw [listChars_eq hn]
    exact h.list

mutual

theorem TypeTree.isClosed : (type : TypeTree) → type.isWellFormed = true → IsClosed type.chars
  | .base b, _ => .single (by cases b <;> decide)
  | .typeVariable name, hw => .cons (by decide) ((IsClosed.variableName hw).concat (by decide))
  | .array component, hw => .array (TypeTree.isClosed component hw) component.chars_ne_nil
  | .ofClass name arguments inner, hw => by
      rw [TypeTree.isWellFormed, Bool.and_eq_true, Bool.and_eq_true] at hw
      obtain ⟨⟨hn, ha⟩, hi⟩ := hw
      have hlist := ArgumentTrees.isClosed_list (ArgumentTrees.isClosed arguments ha)
      have hinner := InnerTrees.isClosed inner hi
      exact .cons (by decide)
        ((IsClosed.className hn).append (hlist.append (hinner.concat (by decide))))

theorem ArgumentTrees.isClosed : (arguments : ArgumentTrees) → arguments.isWellFormed = true →
    IsClosed arguments.chars
  | .nil, _ => .nil
  | .unbounded rest, hw => .cons (by decide) (ArgumentTrees.isClosed rest hw)
  | .bounded wildcard type rest, hw => by
      rw [ArgumentTrees.isWellFormed, Bool.and_eq_true, Bool.and_eq_true] at hw
      obtain ⟨⟨-, ht⟩, hr⟩ := hw
      have htype := TypeTree.isClosed type ht
      exact wildcard.isClosed_marker.append (htype.append (ArgumentTrees.isClosed rest hr))

theorem InnerTrees.isClosed : (inner : InnerTrees) → inner.isWellFormed = true →
    IsClosed inner.chars
  | .nil, _ => .nil
  | .cons name arguments inner, hw => by
      rw [InnerTrees.isWellFormed, Bool.and_eq_true, Bool.and_eq_true] at hw
      obtain ⟨⟨hn, ha⟩, hi⟩ := hw
      have hlist := ArgumentTrees.isClosed_list (ArgumentTrees.isClosed arguments ha)
      have hname : IsClosed ('.' :: name.toList) := .cons (by decide) (.variableName hn)
      exact hname.append (hlist.append (InnerTrees.isClosed inner hi))

end

/-! ### Places and the text before them -/

/-- What a place says of the text before it.  Each list of type arguments stands for two structures:
the class that it belongs to and one argument.  The gap between the structures that are open and the
lists that are is known: an odd one tells that no argument is open in the innermost list, and more
than that are lists of something else. -/
structure Place.Fits (place : Place) (gap : Nat) (seen : List Char) : Prop where
  depth : 2 * seen.count '<' = 2 * seen.count '>' + (place.depth + gap)
  arrays : EndsInArrays place.pending seen

namespace Place

theorem after_append : place.after (es ++ fs) = (place.after es).after fs := List.foldl_append

/-- One more piece of the text, and the place behind it. -/
theorem Fits.move (h : place.Fits gap seen)
    (hd : 2 * t.count '<' + (place.depth + gap) = 2 * t.count '>' + (next.depth + gap'))
    (hp : next.pending = 0) (ht : t.getLast? ≠ some '[') (hne : t ≠ [] ∨ place.pending = 0) :
    next.Fits gap' (seen ++ t) where
  depth := by
    have := h.depth
    rw [List.count_append, List.count_append]
    omega
  arrays := by
    rw [hp]
    exact endsInArrays_append ht (hne.imp_right fun hz => by rw [← hz]; exact h.arrays)

/-- A piece without open lists that leads back to the same depth. -/
theorem Fits.closed (h : place.Fits gap seen) (ht : IsClosed t) (hd : next.depth = place.depth)
    (hp : next.pending = 0) (hne : t ≠ [] ∨ place.pending = 0) : next.Fits gap (seen ++ t) :=
  h.move (by rw [ht.balanced, hd]) hp ht.plain hne

theorem Fits.array (h : place.Fits gap seen) :
    (place.advance .arrayType).Fits gap (seen ++ ['[']) where
  depth := by
    rw [List.count_append, List.count_append]
    exact h.depth
  arrays := h.arrays.push

theorem Fits.open_list (h : place.Fits gap seen) (ht : IsClosed t)
    (hd : next.depth = place.depth + 1) (hp : next.pending = 0) :
    next.Fits (gap + 1) (seen ++ t ++ ['<']) := by
  rw [List.append_assoc]
  refine h.move ?_ hp (by rw [List.getLast?_concat]; decide) (.inl (by simp))
  rw [List.count_append, List.count_append, ht.balanced, hd]
  show 2 * (t.count '>' + 1) + (place.depth + gap) = 2 * t.count '>' + (place.depth + 1 + (gap + 1))
  omega

theorem Fits.close_list {arguments : ArgumentTrees} (h : place.Fits gap seen) (ht : IsClosed t)
    (hne : t ≠ []) (hw : arguments.isWellFormed = true) (hd : next.depth = place.depth)
    (hp : next.pending = 0) : next.Fits gap (seen ++ t ++ arguments.listChars) := by
  have hlist := ArgumentTrees.isClosed_list (arguments.isClosed hw)
  rw [List.append_assoc]
  exact h.closed (ht.append hlist) hd hp (.inl (by simp [hne]))

/-- Places that agree on what bears on later uses fit the same texts. -/
theorem Fits.congr (h : place.Fits gap seen) (hs : place.settled = next.settled) :
    next.Fits gap seen where
  depth := by
    have hd : place.depth = next.depth := (Place.mk.inj hs).1
    rw [← hd]
    exact h.depth
  arrays := by
    have hp : place.pending = next.pending := (Place.mk.inj hs).2.2.2.1
    rw [← hp]
    exact h.arrays

theorem pending_eq_zero (h : place.afterArray = false) : place.pending = 0 := by
  rw [pending, h]
  rfl

theorem settled_settled : place.settled.settled = place.settled := by
  rw [settled, settled, pending]
  cases place.afterArray <;> rfl

end Place

/-! ### Finding references -/

/-- A text is read from a move on, behind a text that was read before.  Wherever a reference is
among its events, the variable stands in the text, and what is ahead of the variable is read as the
events ahead of the reference. -/
def Finds (m : Option Char → Move) (place : Place) (seen s : List Char) (es : List Event)
    (Q : List Char → String → Place → Prop) : Prop :=
  ∀ es₁ name es₂, es = es₁ ++ .typeVariable name :: es₂ → ∃ s₁ s₂ left,
    s = s₁ ++ ('T' :: name.toList ++ ';' :: s₂) ∧
      Begins m (s₁ ++ 'T' :: name.toList) es₁ (.variableName name :: left) ∧
      Q (seen ++ s₁) name (place.after es₁).settled

/-- An element of two lists is one of the first or one of the second. -/
theorem append_eq_append_cons {α : Type} {a : α} {as bs as' bs' : List α}
    (h : as ++ bs = as' ++ a :: bs') :
    (∃ cs, as' = as ++ cs ∧ bs = cs ++ a :: bs') ∨ ∃ cs, as = as' ++ a :: cs := by
  rcases List.append_eq_append_iff.1 h with ⟨cs, rfl, hb⟩ | ⟨cs, rfl, hb⟩
  · exact .inl ⟨cs, rfl, hb⟩
  · cases cs with
    | nil => exact .inl ⟨[], by simp, hb.symm⟩
    | cons c cs =>
        obtain ⟨rfl, -⟩ := List.cons.inj hb
        exact .inr ⟨cs, rfl⟩

namespace Finds

theorem mono (h : Finds m place seen s es Q) (hQ : ∀ u name p, Q u name p → Q' u name p) :
    Finds m place seen s es Q' := by
  intro es₁ name es₂ he
  obtain ⟨s₁, s₂, left, hs, hb, hq⟩ := h es₁ name es₂ he
  exact ⟨s₁, s₂, left, hs, hb, hQ _ _ _ hq⟩

theorem of_none (h : ∀ e ∈ es, e.reference? = none) : Finds m place seen s es Q := by
  intro es₁ name es₂ he
  have hmem : Event.typeVariable name ∈ es := by rw [he]; simp
  cases h _ hmem

theorem within (h : Finds m place seen s es Q) : Finds m place seen s es fun u name p =>
    Q u name p ∧ ∃ s₁, u = seen ++ s₁ ∧ s₁ ++ ('T' :: name.toList ++ [';']) <+: s := by
  intro es₁ name es₂ he
  obtain ⟨s₁, s₂, left, hs, hb, hq⟩ := h es₁ name es₂ he
  exact ⟨s₁, s₂, left, hs, hb, hq, s₁, rfl, s₂, by rw [hs]; simp⟩

/-- Events without references may come first, with some more text. -/
theorem behind (t : List Char) (before : List Event) (h : Finds m next (seen ++ t) s es Q)
    (hbefore : ∀ e ∈ before, e.reference? = none)
    (hplace : (place.after before).settled = next.settled)
    (hm : ∀ s' es' left, s' ≠ [] → s' <+: s → Begins m s' es' left →
      Begins m' (t ++ s') (before ++ es') left) :
    Finds m' place seen (t ++ s) (before ++ es) Q := by
  intro es₁ name es₂ he
  rcases append_eq_append_cons he with ⟨fs, rfl, hes⟩ | ⟨fs, rfl⟩
  · obtain ⟨s₁, s₂, left, rfl, hb, hq⟩ := h fs name es₂ hes
    refine ⟨t ++ s₁, s₂, left, (List.append_assoc ..).symm, ?_, ?_⟩
    · rw [List.append_assoc]
      exact hm _ _ _ (by simp) ⟨';' :: s₂, by simp⟩ hb
    · rw [Place.after_append, (Place.congr_of_settled hplace fs).1, ← List.append_assoc]
      exact hq
  · have hnone := hbefore (.typeVariable name) (by simp)
    cases hnone

theorem from_move (before : List Event) (h : Finds m next seen s es Q)
    (hbefore : ∀ e ∈ before, e.reference? = none)
    (hplace : (place.after before).settled = next.settled)
    (hm : ∀ s' es' left, s' ≠ [] → s' <+: s → Begins m s' es' left →
      Begins m' s' (before ++ es') left) : Finds m' place seen s (before ++ es) Q := by
  rw [← List.append_nil seen] at h
  exact behind [] before h hbefore hplace hm

/-- A reference in two texts is in the first or in the second. -/
theorem append (h : Finds m place seen s es Q) (hb : Begins m s es k)
    (h' : Finds (step k) next (seen ++ s) t fs Q)
    (hplace : (place.after es).settled = next.settled) :
    Finds m place seen (s ++ t) (es ++ fs) Q := by
  intro es₁ name es₂ he
  rcases append_eq_append_cons he with ⟨gs, rfl, hfs⟩ | ⟨gs, rfl⟩
  · obtain ⟨s₁, s₂, left, rfl, hb', hq⟩ := h' gs name es₂ hfs
    refine ⟨s ++ s₁, s₂, left, (List.append_assoc ..).symm, ?_, ?_⟩
    · rw [List.append_assoc]
      exact hb.trans hb'.reads
    · rw [Place.after_append, (Place.congr_of_settled hplace gs).1, ← List.append_assoc]
      exact hq
  · obtain ⟨s₁, s₂, left, rfl, hb', hq⟩ := h es₁ name gs rfl
    exact ⟨s₁, s₂ ++ t, left, by simp, hb', hq⟩

end Finds

/-! ### Types -/

/-- A place belongs to a part of the signature and fits the text before it. -/
def Located (part : Part) (gap : Nat) (seen : List Char) (_ : String) (place : Place) : Prop :=
  place.part = part ∧ place.Fits gap seen

namespace Place

variable {others : Nat}

/-- Behind a type a place is where it was before. -/
theorem Fits.after_type (h : place.Fits (2 * others) seen) (type : TypeTree) :
    (place.after type.events).settled = place.past.settled := by
  have hd : place.depth = 2 * (seen.count '<' - seen.count '>' - others) := by
    have := h.depth
    omega
  exact (TypeTree.reaches _ place hd type).1

/-- Behind type arguments a place is where it was before. -/
theorem Fits.after_arguments (h : place.Fits (2 * others + 1) seen) (ha : place.afterArray = false)
    (arguments : ArgumentTrees) : (place.after arguments.events).settled = place.settled := by
  have hd : place.depth + 1 = 2 * (seen.count '<' - seen.count '>' - others) := by
    have := h.depth
    omega
  have hsettled := settled_of_not_afterArray ha
  rw [(congr_of_settled hsettled _).1, hsettled]
  exact (ArgumentTrees.reaches _ place hd arguments).1

end Place

section

variable {others : Nat} {part : Part}

theorem finds_java {type : TypeTree}
    (h : type.isReference = true → Finds (readReference k) place seen type.chars type.events Q) :
    Finds (readJava k) place seen type.chars type.events Q := by
  cases hr : type.isReference with
  | true => exact (h hr).from_move [] (List.forall_mem_nil _) rfl fun _ _ _ _ _ hb => hb.java
  | false =>
      refine .of_none ?_
      cases type with
      | base b => simp [TypeTree.events, Event.reference?]
      | typeVariable _ => cases hr
      | array _ => cases hr
      | ofClass _ _ _ => cases hr

/-- What follows the name of a class: its type arguments and then its inner classes. -/
theorem finds_classTail {arguments : ArgumentTrees} {inner : InnerTrees}
    (ha : place.afterArray = false) (hf : place.Fits (2 * others + 1) (seen ++ ['<']))
    (hw : arguments.isWellFormed = true)
    (harguments : arguments ≠ .nil → Finds (readArgument (.classEnd :: k)) place (seen ++ ['<'])
      (arguments.chars ++ ['>']) arguments.events Q)
    (hinner : Finds (readClassEnd k) place (seen ++ arguments.listChars) (inner.chars ++ [';'])
      (.close :: inner.events) Q) :
    Finds (readClassTail k) place seen (arguments.listChars ++ (inner.chars ++ [';']))
      (arguments.events ++ .close :: inner.events) Q := by
  by_cases hn : arguments = .nil
  · subst hn
    exact hinner.behind [] [] (List.forall_mem_nil _) rfl fun _ _ _ _ _ hb => hb.classTail
  · rw [ArgumentTrees.listChars_eq hn] at hinner ⊢
    have hend : Finds (step (.classEnd :: k)) place (seen ++ ['<'] ++ (arguments.chars ++ ['>']))
        (inner.chars ++ [';']) (.close :: inner.events) Q := by
      rw [List.append_assoc]
      exact hinner
    have hbegins := ArgumentTrees.begins (.classEnd :: k) arguments hn hw
    have hlist := (harguments hn).append hbegins hend (hf.after_arguments ha arguments)
    exact hlist.behind ['<'] [] (List.forall_mem_nil _) rfl fun _ _ _ _ _ hb =>
      begins_of_reads (e := []) rfl hb.firstArgument.reads

theorem finds_moreArguments {arguments : ArgumentTrees}
    (h : arguments ≠ .nil → Finds (readArgument k) place seen (arguments.chars ++ ['>'])
      arguments.events Q) :
    Finds (step (.moreArguments :: k)) place seen (arguments.chars ++ ['>'])
      arguments.events Q := by
  by_cases hn : arguments = .nil
  · subst hn
    exact .of_none (List.forall_mem_nil _)
  · exact (h hn).from_move [] (List.forall_mem_nil _) rfl fun _ _ _ _ _ hb => hb.moreArguments

mutual

/-- A type fits the text before it wherever a variable stands in it. -/
theorem TypeTree.finds (k : List Goal) (seen : List Char) (place : Place) (hp : place.part = part)
    (h : place.Fits (2 * others) seen) : (type : TypeTree) → type.isReference = true →
    type.isWellFormed = true → Finds (readReference k) place seen type.chars type.events
      (Located part (2 * others))
  | .base _, hr, _ => by cases hr
  | .typeVariable name, _, hw => by
      intro es₁ n es₂ he
      obtain ⟨rfl, he'⟩ | ⟨-, ⟨⟩⟩ := List.singleton_eq_append_iff.1 he
      obtain ⟨rfl, -⟩ : n = name ∧ es₂ = [] := by simpa using he'
      have hread : Begins (readReference k) ('T' :: n.toList) [] (.variableName n :: k) :=
        begins_of_reads (e := []) rfl (reads_variableName hw)
      refine ⟨[], [], k, rfl, hread, hp, ?_⟩
      rw [List.append_nil]
      exact h.congr Place.settled_settled.symm
  | .array component, _, hw => by
      have hc : Finds (step (.javaType :: k)) (place.advance .arrayType) (seen ++ ['['])
          component.chars component.events (Located part (2 * others)) :=
        finds_java fun hr =>
          TypeTree.finds k _ (place.advance .arrayType) hp h.array component hr hw
      exact hc.behind ['['] [.arrayType] (by simp [Event.reference?]) rfl fun _ _ _ _ _ hb =>
        begins_of_reads (e := [.arrayType]) rfl hb.reads
  | .ofClass name arguments inner, _, hw => by
      rw [TypeTree.isWellFormed, Bool.and_eq_true, Bool.and_eq_true] at hw
      obtain ⟨⟨hn, ha⟩, hi⟩ := hw
      let opened := place.advance (.classType name)
      have hname : IsClosed ('L' :: name.toList) := .cons (by decide) (.className hn)
      have hopened : opened.Fits (2 * others + 1) (seen ++ 'L' :: name.toList ++ ['<']) :=
        h.open_list hname rfl rfl
      have hclosed : (opened.advance .close).Fits (2 * others)
          (seen ++ 'L' :: name.toList ++ arguments.listChars) :=
        h.close_list hname (List.cons_ne_nil _ _) ha rfl rfl
      have htail := finds_classTail (k := k) rfl hopened ha
        (fun hne => ArgumentTrees.finds _ _ opened hp rfl hopened arguments hne ha)
        (InnerTrees.finds k _ opened hp hclosed inner hi)
      exact htail.behind ('L' :: name.toList) [.classType name] (by simp [Event.reference?]) rfl
        fun _ _ _ _ _ hb => begins_of_reads (c := 'L') (e := []) rfl
          ((reads_className hn).trans (hb.after_className (isName_iff.1 hn).1).reads)

theorem ArgumentTrees.finds (k : List Goal) (seen : List Char) (place : Place)
    (hp : place.part = part) (ha : place.afterArray = false)
    (h : place.Fits (2 * others + 1) seen) :
    (arguments : ArgumentTrees) → arguments ≠ .nil → arguments.isWellFormed = true →
    Finds (readArgument k) place seen (arguments.chars ++ ['>']) arguments.events
      (Located part (2 * others))
  | .nil, hn, _ => absurd rfl hn
  | .unbounded rest, _, hw => by
      have hnext : (place.advance .unboundedArgument).Fits (2 * others + 1) (seen ++ ['*']) :=
        h.closed (.single (by decide)) rfl rfl (.inl (by simp))
      have hr := finds_moreArguments fun hn =>
        ArgumentTrees.finds k _ (place.advance .unboundedArgument) hp rfl hnext rest hn hw
      exact hr.behind ['*'] [.unboundedArgument] (by simp [Event.reference?]) rfl
        fun _ _ _ _ _ hb => begins_of_reads (e := [.unboundedArgument]) rfl hb.reads
  | .bounded wildcard type rest, _, hw => by
      rw [ArgumentTrees.isWellFormed, Bool.and_eq_true, Bool.and_eq_true] at hw
      obtain ⟨⟨ht, htw⟩, hw⟩ := hw
      let opened := place.advance (.typeArgument wildcard)
      let closed := opened.past.advance .close
      have hopened : opened.Fits (2 * others) (seen ++ wildcard.marker?.toList) := by
        have hm := wildcard.isClosed_marker
        refine h.move ?_ rfl hm.plain (.inr (Place.pending_eq_zero ha))
        rw [hm.balanced]
        show _ + (place.depth + (2 * others + 1)) = _ + (place.depth + 1 + 2 * others)
        omega
      have hclosed : closed.Fits (2 * others + 1)
          (seen ++ wildcard.marker?.toList ++ type.chars) := by
        have hc := type.isClosed htw
        refine hopened.move ?_ rfl hc.plain (.inl type.chars_ne_nil)
        rw [hc.balanced]
        show _ + (place.depth + 1 + 2 * others) = _ + (place.depth + (2 * others + 1))
        omega
      have hr := finds_moreArguments fun hn =>
        ArgumentTrees.finds k _ closed hp rfl hclosed rest hn hw
      have hend : Finds (step (.argumentEnd :: .moreArguments :: k)) opened.past
          (seen ++ wildcard.marker?.toList ++ type.chars) (rest.chars ++ ['>'])
          (.close :: rest.events) (Located part (2 * others)) :=
        hr.from_move [.close] (by simp [Event.reference?]) rfl fun _ _ _ _ _ hb => hb.after_argument
      have htype := (TypeTree.finds _ _ opened hp hopened type ht htw).append
        (TypeTree.begins (.argumentEnd :: .moreArguments :: k) type ht htw) hend
        (hopened.after_type type)
      have hc : (ArgumentTrees.bounded wildcard type rest).chars ++ ['>'] =
          wildcard.marker?.toList ++ (type.chars ++ (rest.chars ++ ['>'])) := by
        simp [ArgumentTrees.chars]
      rw [hc]
      exact htype.behind wildcard.marker?.toList [.typeArgument wildcard]
        (by simp [Event.reference?]) rfl fun _ _ _ _ _ hb => begins_bounded hb

theorem InnerTrees.finds (k : List Goal) (seen : List Char) (place : Place) (hp : place.part = part)
    (h : (place.advance .close).Fits (2 * others) seen) : (inner : InnerTrees) →
    inner.isWellFormed = true → Finds (readClassEnd k) place seen (inner.chars ++ [';'])
      (.close :: inner.events) (Located part (2 * others))
  | .nil, _ => .of_none (by simp [InnerTrees.events, Event.reference?])
  | .cons name arguments inner, hw => by
      rw [InnerTrees.isWellFormed, Bool.and_eq_true, Bool.and_eq_true] at hw
      obtain ⟨⟨hn, ha⟩, hi⟩ := hw
      let opened := (place.advance .close).advance (.innerClassType name)
      have hname : IsClosed ('.' :: name.toList) := .cons (by decide) (.variableName hn)
      have hopened : opened.Fits (2 * others + 1) (seen ++ '.' :: name.toList ++ ['<']) :=
        h.open_list hname rfl rfl
      have hclosed : (opened.advance .close).Fits (2 * others)
          (seen ++ '.' :: name.toList ++ arguments.listChars) :=
        h.close_list hname (List.cons_ne_nil _ _) ha rfl rfl
      have htail := finds_classTail (k := k) rfl hopened ha
        (fun hne => ArgumentTrees.finds _ _ opened hp rfl hopened arguments hne ha)
        (InnerTrees.finds k _ opened hp hclosed inner hi)
      have hc : (InnerTrees.cons name arguments inner).chars ++ [';'] =
          '.' :: name.toList ++ (arguments.listChars ++ (inner.chars ++ [';'])) := by
        simp [InnerTrees.chars]
      rw [hc]
      exact htail.behind ('.' :: name.toList) [.close, .innerClassType name]
        (by simp [Event.reference?]) rfl
        fun _ _ _ _ _ hb => begins_of_reads (c := '.') (e := []) rfl
          ((reads_innerName hn).trans (hb.after_innerName (isName_iff.1 hn).1).reads)

end

theorem TypeTree.finds_any (k : List Goal) {type : TypeTree} (hp : place.part = part)
    (h : place.Fits (2 * others) seen) (hw : type.isWellFormed = true) :
    Finds (readJava k) place seen type.chars type.events (Located part (2 * others)) :=
  finds_java fun hr => TypeTree.finds k seen place hp h type hr hw

end

end RecordRepair.Signature
