import RecordRepair.Proofs.Signature.Rewriting
import RecordRepair.Proofs.Signature.Splicing

/-! # Class signatures of spliced names

`ClassTree.spliced` is the tree of a class signature in which type parameters have one bound and no
class type has type arguments.  Its names may be any text.

* `printAll_spliced`: the events of such a tree are printed as its text, whatever the names are.
* `walk_spliced_iff`: the text is read as the events of the tree if and only if the names of all
  classes can be told apart from what follows them.
* `declaredParameters_spliced` and `reference?_of_spliced`: if the text is accepted, though perhaps
  with other classes in it, it declares the spliced names and refers to none. -/

namespace RecordRepair.Signature

variable {formals : List RawFormal} {superclass : String} {interfaces : List String}

/-- The tree of a class signature without type arguments. -/
def ClassTree.spliced (formals : List RawFormal) (superclass : String)
    (interfaces : List String) : ClassTree where
  formals := formals.map RawFormal.tree
  superclass := .raw superclass
  interfaces := interfaces.map .raw

theorem ClassTree.spliced_events : (spliced formals superclass interfaces).events =
    (formals.flatMap fun f => f.tree.events) ++
      ((.superclass :: (TypeTree.raw superclass).events) ++
        interfaces.flatMap fun n => .interface :: (TypeTree.raw n).events) := by
  simp [events, spliced, List.flatMap_map]

theorem ClassTree.spliced_chars_nil : (spliced [] superclass interfaces).chars =
    (TypeTree.raw superclass).chars ++ interfaces.flatMap fun n => (TypeTree.raw n).chars := by
  simp [chars, spliced, FormalTree.listChars, List.flatMap_map]

theorem ClassTree.spliced_chars_cons {formal : RawFormal} :
    (spliced (formal :: formals) superclass interfaces).chars =
      '<' :: (((formal :: formals).flatMap fun f => f.tree.chars) ++
        '>' :: ((TypeTree.raw superclass).chars ++
          interfaces.flatMap fun n => (TypeTree.raw n).chars)) := by
  simp [chars, spliced, FormalTree.listChars, List.flatMap_map]

/-! ### Printing -/

namespace Printer

variable {p : Printer} {e : Event} {es fs : List Event} {s t : List Char} {o o' : Outline}
  {f : Progress}

/-- The printer accepts events, writes a text and has an outline afterwards. -/
def PrintsAll (p : Printer) (es : List Event) (s : List Char) (o : Outline) : Prop :=
  ∃ q, p.writeAll es = .ok q ∧ q.outline = o ∧ q.shown = p.shown ++ s

theorem printsAll_nil (ho : p.outline = o) : p.PrintsAll [] [] o :=
  ⟨p, rfl, ho, (List.append_nil _).symm⟩

theorem Prints.cons (h : p.Prints e s o) (h' : ∀ q : Printer, q.outline = o → q.PrintsAll es t o') :
    p.PrintsAll (e :: es) (s ++ t) o' := by
  obtain ⟨q, hw, ho, hs⟩ := h
  obtain ⟨r, hw', ho', hs'⟩ := h' q ho
  refine ⟨r, ?_, ho', by rw [hs', hs, List.append_assoc]⟩
  rw [writeAll, hw, Except.bind, hw']

theorem PrintsAll.append (h : p.PrintsAll es s o)
    (h' : ∀ q : Printer, q.outline = o → q.PrintsAll fs t o') :
    p.PrintsAll (es ++ fs) (s ++ t) o' := by
  obtain ⟨q, hw, ho, hs⟩ := h
  obtain ⟨r, hw', ho', hs'⟩ := h' q ho
  refine ⟨r, ?_, ho', by rw [hs', hs, List.append_assoc]⟩
  rw [writeAll_append, hw, Except.bind, hw']

theorem printsAll_raw (name : String) (ho : p.outline = o) :
    p.PrintsAll (TypeTree.raw name).events (TypeTree.raw name).chars o := by
  obtain ⟨f, par, fr⟩ := o
  exact (prints_classType ho).cons fun q hq =>
    (prints_close_classType hq).cons fun r hr => printsAll_nil hr

theorem printsAll_rawFormal (formal : RawFormal) (ho : p.outline = ⟨f, .notStarted, []⟩)
    (hf : f ≠ .closed) :
    p.PrintsAll formal.tree.events ((if f = .notStarted then ['<'] else []) ++ formal.tree.chars)
      ⟨.inside, .notStarted, []⟩ := by
  have hb : ∀ q : Printer, q.outline = ⟨.inside, .notStarted, []⟩ →
      q.PrintsAll ((if formal.isInterface then .interfaceBound else .classBound) ::
          (TypeTree.raw formal.bound).events)
        ((if formal.isInterface then [':'] else []) ++ (TypeTree.raw formal.bound).chars)
        ⟨.inside, .notStarted, []⟩ := by
    intro q hq
    cases formal.isInterface with
    | true =>
        have hp : q.Prints .interfaceBound ":".toList q.outline := prints_put (by simp) rfl
        exact hp.cons fun r hr => printsAll_raw formal.bound (by rw [hr, hq])
    | false =>
        have hp : q.Prints .classBound [] q.outline := prints_classBound
        exact hp.cons fun r hr => printsAll_raw formal.bound (by rw [hr, hq])
  have hname : p.Prints (.formalParameter formal.name) _ _ := prints_formalParameter ho hf
  have hall := hname.cons hb
  have hc : (if f = .notStarted then ['<'] else []) ++ formal.tree.chars =
      ((if f = .notStarted then ['<'] else []) ++ formal.name.toList ++ [':']) ++
        ((if formal.isInterface then [':'] else []) ++ (TypeTree.raw formal.bound).chars) := by
    simp [RawFormal.tree_chars]
  rw [hc, RawFormal.tree_events]
  exact hall

theorem printsAll_rawFormals (formals : List RawFormal)
    (ho : p.outline = ⟨.inside, .notStarted, []⟩) :
    p.PrintsAll (formals.flatMap fun f => f.tree.events) (formals.flatMap fun f => f.tree.chars)
      ⟨.inside, .notStarted, []⟩ := by
  induction formals generalizing p with
  | nil => exact printsAll_nil ho
  | cons formal rest ih =>
      have hf := printsAll_rawFormal formal ho (by decide)
      exact hf.append fun q hq => ih hq

theorem printsAll_rawInterfaces (names : List String) (ho : p.outline = ⟨f, .notStarted, []⟩)
    (hf : f ≠ .inside) :
    p.PrintsAll (names.flatMap fun n => .interface :: (TypeTree.raw n).events)
      (names.flatMap fun n => (TypeTree.raw n).chars) ⟨f, .notStarted, []⟩ := by
  induction names generalizing p with
  | nil => exact printsAll_nil ho
  | cons name names ih =>
      have hi := prints_interface ho
      rw [closing, if_neg hf, afterFormals, if_neg hf] at hi
      exact (hi.cons fun q hq => printsAll_raw name hq).append fun q hq => ih hq

end Printer

open Printer

/-- **Spliced names are printed as they are.** -/
theorem printAll_spliced : printAll (ClassTree.spliced formals superclass interfaces).events =
    .ok (String.ofList (ClassTree.spliced formals superclass interfaces).chars) := by
  have hstart : Printer.empty.outline = ⟨.notStarted, .notStarted, []⟩ := rfl
  have hrest : ∀ {f : Progress} (q : Printer), q.outline = ⟨f, .notStarted, []⟩ →
      q.PrintsAll ((.superclass :: (TypeTree.raw superclass).events) ++
          interfaces.flatMap fun n => .interface :: (TypeTree.raw n).events)
        ((closing f ++ (TypeTree.raw superclass).chars) ++
          interfaces.flatMap fun n => (TypeTree.raw n).chars)
        ⟨afterFormals f, .notStarted, []⟩ := fun q hq =>
    ((prints_superclass hq).cons fun r hr => printsAll_raw superclass hr).append fun r hr =>
      printsAll_rawInterfaces interfaces hr afterFormals_ne_inside
  have hall : ∃ f, f ≠ .inside ∧
      Printer.empty.PrintsAll (ClassTree.spliced formals superclass interfaces).events
        (ClassTree.spliced formals superclass interfaces).chars ⟨f, .notStarted, []⟩ := by
    cases formals with
    | nil =>
        refine ⟨.notStarted, by decide, ?_⟩
        rw [ClassTree.spliced_events, ClassTree.spliced_chars_nil]
        exact hrest Printer.empty hstart
    | cons formal rest =>
        refine ⟨.closed, by decide, ?_⟩
        have hf := (printsAll_rawFormal formal hstart (by decide)).append
          fun q hq => printsAll_rawFormals rest hq
        rw [ClassTree.spliced_events, ClassTree.spliced_chars_cons]
        have hp := hf.append hrest
        simpa [closing, afterFormals] using hp
  obtain ⟨f, hf, q, hw, ho, hs⟩ := hall
  rw [printAll, hw, Except.bind, finish_eq_of_resumes (.field hf (by decide)) ho, hs]
  rfl

/-! ### Reading -/

theorem RawFormal.tree_isWellFormed {formal : RawFormal} (hn : isName endsName formal.name = true)
    (hb : isName endsClassName formal.bound = true) : formal.tree.isWellFormed = true := by
  cases h : formal.isInterface <;> simp [tree, FormalTree.isWellFormed, h, hn, hb]

theorem areWellFormed_rawFormals (hn : ∀ f ∈ formals, isName endsName f.name = true)
    (hb : ∀ f ∈ formals, isName endsClassName f.bound = true) :
    FormalTree.areWellFormed (formals.map RawFormal.tree) = true := by
  induction formals with
  | nil => rfl
  | cons formal rest ih =>
      obtain ⟨hnf, hn⟩ := List.forall_mem_cons.1 hn
      obtain ⟨hbf, hb⟩ := List.forall_mem_cons.1 hb
      have hw := RawFormal.tree_isWellFormed hnf hbf
      have hi := ih hn hb
      cases rest with
      | nil => exact hw
      | cons next rest =>
          have hbounded : formal.tree.isUnbounded = false := by
            cases h : formal.isInterface <;> simp [RawFormal.tree, FormalTree.isUnbounded, h]
          rw [List.map_cons] at hi
          simp [FormalTree.areWellFormed, FormalTree.mayFollow, hw, hbounded, hi]

/-- **When spliced names are read back.**  The text is read as the events of the tree exactly if the
names of all classes are names as the grammar has them. -/
theorem walk_spliced_iff (hn : ∀ f ∈ formals, isName endsName f.name = true)
    (hs : isName endsClassName superclass = true) :
    walk .classKind (String.ofList (ClassTree.spliced formals superclass interfaces).chars) =
        ⟨(ClassTree.spliced formals superclass interfaces).events, none⟩ ↔
      (∀ f ∈ formals, isName endsClassName f.bound = true) ∧
        ∀ n ∈ interfaces, isName endsClassName n = true := by
  constructor
  · intro hw
    have hevents : (walk .classKind
        (String.ofList (ClassTree.spliced formals superclass interfaces).chars)).events =
          (ClassTree.spliced formals superclass interfaces).events := congrArg Walk.events hw
    have hproper : ∀ name, Event.classType name ∈
        (ClassTree.spliced formals superclass interfaces).events →
          isName endsClassName name = true := by
      intro name hm
      rw [← hevents] at hm
      exact hasProperName_of_walk hm
    rw [ClassTree.spliced_events] at hproper
    constructor
    · intro f hf
      refine hproper f.bound (List.mem_append_left _ (List.mem_flatMap.2 ⟨f, hf, ?_⟩))
      rw [RawFormal.tree_events]
      simp
    · intro n hm
      refine hproper n (List.mem_append_right _ (List.mem_append_right _ ?_))
      exact List.mem_flatMap.2 ⟨n, hm, by simp⟩
  · rintro ⟨hb, hi⟩
    have hw : (Tree.ofClass
        (ClassTree.spliced formals superclass interfaces)).isWellFormed = true := by
      simpa [Tree.isWellFormed, ClassTree.isWellFormed, ClassTree.spliced,
        areWellFormed_rawFormals hn hb, hs] using hi
    exact Tree.walk_eq hw

/-- An accepted class signature of spliced names declares the names of its type parameters, and goes
on behind its superclass. -/
theorem completes_spliced {es : List Event} (hp : ∀ f ∈ formals, f.IsPlain)
    (hs : isName endsClassName superclass = true)
    (hc : Completes Kind.classKind.goals (ClassTree.spliced formals superclass interfaces).chars
      es) :
    ∃ fs gs, es = fs ++ (.superclass :: (TypeTree.raw superclass).events ++ gs) ∧
      DeclaresOnly (formals.map RawFormal.name) fs ∧
      Completes [.interfaces] (interfaces.flatMap fun n => (TypeTree.raw n).chars) gs := by
  have hsuper : Begins (step [.superclass, .interfaces]) (TypeTree.raw superclass).chars
      (.superclass :: (TypeTree.raw superclass).events) [.interfaces] :=
    (TypeTree.begins_class rfl (TypeTree.raw_isWellFormed.trans hs)).superclass
  have hall : ∃ fs gs, es = fs ++ gs ∧ DeclaresOnly (formals.map RawFormal.name) fs ∧
      Completes [.superclass, .interfaces] ((TypeTree.raw superclass).chars ++
        interfaces.flatMap fun n => (TypeTree.raw n).chars) gs := by
    cases formals with
    | nil =>
        rw [ClassTree.spliced_chars_nil] at hc
        obtain ⟨next, fs, gs, hm, hk, rfl⟩ := completes_cons_iff.1 hc
        exact ⟨[], fs ++ gs, rfl, .nil, completes_cons_iff.2 ⟨next, fs, gs, hm, hk, rfl⟩⟩
    | cons formal rest =>
        rw [ClassTree.spliced_chars_cons] at hc
        have hopen : Reads Kind.classKind.goals ['<'] [] [.firstFormal, .superclass, .interfaces] :=
          .single rfl
        obtain ⟨gs, rfl, hk⟩ := hopen.completes_append hc
        refine completes_rawFormals hp (List.cons_ne_nil _ _) (fun c hc => ?_) hk
        have hclose : some c ≠ some '>' := by
          rintro he
          obtain rfl := Option.some.inj he
          cases hc
        rw [step, if_neg hclose]
  obtain ⟨fs, gs, rfl, hd, hk⟩ := hall
  obtain ⟨gs, rfl, hk'⟩ := hsuper.reads.completes_append hk
  exact ⟨fs, gs, rfl, hd, hk'⟩

/-- **An accepted class signature of spliced names declares the names of its type parameters,**
whatever its bounds are read as. -/
theorem declaredParameters_spliced {text : String} (hp : ∀ f ∈ formals, f.IsPlain)
    (hs : isName endsClassName superclass = true)
    (ht : text.toList = (ClassTree.spliced formals superclass interfaces).chars)
    (hw : (walk .classKind text).error = none) :
    declaredParameters .classKind text = .ok (formals.map RawFormal.name) := by
  have hc := completes_of_walk hw
  rw [ht] at hc
  obtain ⟨fs, gs, he, hd, -⟩ := completes_spliced hp hs hc
  have hfirst := formalsFirst_of_walk .classKind text
  rw [declaredParameters_of_walk hw, ← hfirst.filterMap_takeWhile, he]
  have hpos : ∀ e ∈ fs, (!e.endsFormals) = true := fun e hm => by rw [hd.before e hm]; rfl
  rw [List.takeWhile_append_of_pos hpos, List.cons_append, List.takeWhile_cons_of_neg (by decide),
    List.append_nil, hd.formals]

/-- **An accepted class signature of spliced names refers to no type variable.** -/
theorem reference?_of_spliced {text : String} (hp : ∀ f ∈ formals, f.IsPlain)
    (hs : isName endsClassName superclass = true) (hi : ∀ n ∈ interfaces, ';' ∉ n.toList)
    (ht : text.toList = (ClassTree.spliced formals superclass interfaces).chars)
    (hw : (walk .classKind text).error = none) :
    ∀ e ∈ (walk .classKind text).events, e.reference? = none := by
  have hc := completes_of_walk hw
  rw [ht] at hc
  obtain ⟨fs, gs, he, hd, hk⟩ := completes_spliced hp hs hc
  rw [he]
  refine List.forall_mem_append.2 ⟨hd.references, List.forall_mem_append.2 ⟨?_, ?_⟩⟩
  · simp [Event.reference?]
  · exact completes_rawInterfaces hi hk

end RecordRepair.Signature
