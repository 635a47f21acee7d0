import RecordRepair.Proofs.Signature.Printing
import RecordRepair.Proofs.Signature.Reading

/-! # Printing what was read

The reader and the printer keep different accounts of the same signature.  The reader has a stack of
goals, the printer a list of open structures, the progress of two lists and a `;` held back.

* `Resumes o k`: behind a finished type the goals `k` are left, and the printer has the outline `o`.
* `Agrees o g u`: the reader has the goals `g`, the printer has the outline `o`, and `u` is the text
  that has been read and not yet written.  It is the name that is being read, or a mark that only
  the next event writes.
* `step_follows`: whatever comes next, the printer accepts the events of the step, writes no more
  than was read, and agrees with the reader again.
* `scan_follows` runs this over a text, and `printAll_walk` is the case of a whole signature. -/

namespace RecordRepair.Signature

/-! ### Agreement of reader and printer -/

open Printer

/-- What stands behind the type parameters of a class or of a method. -/
inductive Tail : List Goal → Prop
  | ofClass : Tail [.superclass, .interfaces]
  | ofMethod : Tail [.parameters, .returnType, .exceptions]

/-- Behind a finished type these goals are left, and the printer has this outline. -/
inductive Resumes : Outline → List Goal → Prop
  | field {f par : Progress} : f ≠ .inside → par ≠ .inside → Resumes ⟨f, par, []⟩ []
  | bound {t : List Goal} : Tail t →
      Resumes ⟨.inside, .notStarted, []⟩ (.interfaceBounds :: .moreFormals :: t)
  | interfaces {f : Progress} : f ≠ .inside → Resumes ⟨f, .notStarted, []⟩ [.interfaces]
  | parameter {f : Progress} : f ≠ .inside →
      Resumes ⟨f, .inside, []⟩ [.moreParameters, .returnType, .exceptions]
  | exceptions {f : Progress} : f ≠ .inside → Resumes ⟨f, .closed, []⟩ [.exceptions]
  | argument {f par : Progress} {fr : List Frame} {k : List Goal} : Resumes ⟨f, par, fr⟩ k →
      Resumes ⟨f, par, .argument :: .classType true :: fr⟩
        (.argumentEnd :: .moreArguments :: .classEnd :: k)

/-- With these goals the printer has this outline, and this text has been read and not written. -/
inductive Agrees : Outline → List Goal → List Char → Prop
  | resumes {o : Outline} {k : List Goal} : Resumes o k → Agrees o k []
  | formals {t : List Goal} : Tail t →
      Agrees ⟨.notStarted, .notStarted, []⟩ (.formals :: t) []
  | firstFormal {t : List Goal} : Tail t →
      Agrees ⟨.notStarted, .notStarted, []⟩ (.firstFormal :: t) ['<']
  | formalName {f : Progress} {t : List Goal} {name : String} : Tail t → f ≠ .closed →
      Agrees ⟨f, .notStarted, []⟩ (.formalName name :: t)
        ((if f = .notStarted then ['<'] else []) ++ name.toList)
  | classBound {t : List Goal} : Tail t →
      Agrees ⟨.inside, .notStarted, []⟩ (.classBound :: .interfaceBounds :: .moreFormals :: t) []
  | afterFormals {f : Progress} {t : List Goal} : Tail t →
      Agrees ⟨f, .notStarted, []⟩ t (closing f)
  | parameters {f : Progress} :
      Agrees ⟨f, .notStarted, []⟩ [.moreParameters, .returnType, .exceptions] (closing f ++ ['('])
  | returnType {f par : Progress} : par ≠ .closed →
      Agrees ⟨f, par, []⟩ [.returnType, .exceptions] (closing f ++ opening par ++ [')'])
  | exceptionType {f : Progress} : f ≠ .inside →
      Agrees ⟨f, .closed, []⟩ [.exceptionType] ['^']
  | javaType {o : Outline} {k : List Goal} : Resumes o k → Agrees o (.javaType :: k) []
  | referenceType {o : Outline} {k : List Goal} : Resumes o k → Agrees o (.referenceType :: k) []
  | variableName {o : Outline} {k : List Goal} {name : String} : Resumes o k →
      Agrees o (.variableName name :: k) ('T' :: name.toList)
  | className {o : Outline} {k : List Goal} {name : String} : Resumes o k →
      Agrees o (.className name :: k) ('L' :: name.toList)
  | innerName {f par : Progress} {fr : List Frame} {b : Bool} {k : List Goal} {name : String} :
      Resumes ⟨f, par, fr⟩ k →
      Agrees ⟨f, par, .classType b :: fr⟩ (.innerName name :: k)
        ((if b then ['>'] else []) ++ '.' :: name.toList)
  | classEnd {f par : Progress} {fr : List Frame} {k : List Goal} : Resumes ⟨f, par, fr⟩ k →
      Agrees ⟨f, par, .classType true :: fr⟩ (.classEnd :: k) ['>']
  | firstArgument {f par : Progress} {fr : List Frame} {k : List Goal} : Resumes ⟨f, par, fr⟩ k →
      Agrees ⟨f, par, .classType false :: fr⟩ (.firstArgument :: .classEnd :: k) ['<']
  | moreArguments {f par : Progress} {fr : List Frame} {k : List Goal} : Resumes ⟨f, par, fr⟩ k →
      Agrees ⟨f, par, .classType true :: fr⟩ (.moreArguments :: .classEnd :: k) []

/-- From a printer that agrees with a reader that has read `seen`, a move for `c` is followed: its
events are written, and the printer agrees with the goals that are left or else has written no more
than `seen`. -/
def Follows (p : Printer) (seen : List Char) (c : Option Char) (m : Move) : Prop :=
  ∃ q, p.writeAll m.events = .ok q ∧
    match m.next with
    | .ok g => ∃ u, Agrees q.outline g u ∧ q.shown ++ u = seen ++ c.toList
    | .error _ => q.text.toList <+: seen

variable {p q : Printer} {seen u : List Char} {o : Outline} {k : List Goal} {m : Move} {e : Event}
  {f par : Progress} {fr : List Frame} {b : Bool} {c : Option Char}

theorem Follows.leave {g : List Goal} (ho : p.outline = o) (h : Agrees o g u)
    (hs : p.shown ++ u = seen ++ c.toList) : Follows p seen c (.leave g) := by
  subst ho
  exact ⟨p, rfl, u, h, hs⟩

theorem Follows.stop {fault : Fault} (hs : p.shown ++ u = seen) :
    Follows p seen c (.stop fault) := by
  refine ⟨p, rfl, ?_⟩
  rw [← hs]
  exact text_prefix_shown.trans (List.prefix_append _ _)

theorem Follows.refuse {defect : Defect} (hs : p.shown ++ u = seen) :
    Follows p seen c (.refuse defect c) := Follows.stop hs

/-- An event that writes a text is followed by what follows after the text. -/
theorem Follows.emit {s : List Char} (hp : p.Prints e s o)
    (h : ∀ q : Printer, q.outline = o → q.shown = p.shown ++ s → Follows q seen c m) :
    Follows p seen c (m.emit e) := by
  obtain ⟨q, hw, ho, hs⟩ := hp
  obtain ⟨r, hr, hm⟩ := h q ho hs
  exact ⟨r, by simp only [Move.emit, writeAll, hw, Except.bind, hr], hm⟩

/-! ### Types -/

theorem readClass_follows (ho : p.outline = o) (hk : Resumes o k) (hs : p.shown = seen) :
    Follows p seen c (readClass k c) := by
  unfold readClass
  split
  · next hc =>
      have hread : p.shown ++ 'L' :: "".toList = seen ++ c.toList := by simp [hs, hc]
      exact .leave ho (.className hk) hread
  · have hread : p.shown ++ [] = seen := by rw [List.append_nil, hs]
    exact .refuse hread

theorem readReference_follows (ho : p.outline = o) (hk : Resumes o k) (hs : p.shown = seen) :
    Follows p seen c (readReference k c) := by
  unfold readReference
  split
  · next hc =>
      have hread : p.shown ++ 'L' :: "".toList = seen ++ c.toList := by simp [hs, hc]
      exact .leave ho (.className hk) hread
  split
  · next hc =>
      have hread : p.shown ++ 'T' :: "".toList = seen ++ c.toList := by simp [hs, hc]
      exact .leave ho (.variableName hk) hread
  split
  · next hc =>
      refine .emit (prints_put (t := "[") (by simp) rfl) fun q hq hs' => ?_
      have hread : q.shown ++ [] = seen ++ c.toList := by simp [hs', hs, hc]
      exact .leave (hq.trans ho) (.javaType hk) hread
  · have hread : p.shown ++ [] = seen := by rw [List.append_nil, hs]
    exact .refuse hread

theorem readJava_follows (ho : p.outline = o) (hk : Resumes o k) (hs : p.shown = seen) :
    Follows p seen c (readJava k c) := by
  unfold readJava
  split
  · next type hc =>
      obtain ⟨d, rfl, hd⟩ := Option.bind_eq_some_iff.1 hc
      have hletter : d = type.letter := (BaseType.letter_of_ofLetter? hd).symm
      refine .emit (prints_put (by simp) rfl) fun q hq hs' => ?_
      have hread : q.shown ++ [] = seen ++ (some d).toList := by simp [hs', hs, hletter]
      exact .leave (hq.trans ho) (.resumes hk) hread
  · exact readReference_follows ho hk hs

theorem readClassEnd_follows (ho : p.outline = ⟨f, par, .classType b :: fr⟩)
    (hk : Resumes ⟨f, par, fr⟩ k) (hs : p.shown ++ (if b then ['>'] else []) = seen) :
    Follows p seen c (readClassEnd k c) := by
  unfold readClassEnd
  split
  · next hc =>
      refine .emit (prints_close_classType ho) fun q hq hs' => ?_
      have hread : q.shown ++ [] = seen ++ c.toList := by simp [hs', ← hs, hc]
      exact .leave hq (.resumes hk) hread
  split
  · next hc =>
      have hread : p.shown ++ ((if b then ['>'] else []) ++ '.' :: "".toList) =
          seen ++ c.toList := by simp [← hs, hc]
      exact .leave ho (.innerName hk) hread
  · exact .refuse hs

theorem readClassTail_follows (ho : p.outline = ⟨f, par, .classType false :: fr⟩)
    (hk : Resumes ⟨f, par, fr⟩ k) (hs : p.shown = seen) :
    Follows p seen c (readClassTail k c) := by
  unfold readClassTail
  split
  · next hc =>
      have hread : p.shown ++ ['<'] = seen ++ c.toList := by simp [hs, hc]
      exact .leave ho (.firstArgument hk) hread
  · exact readClassEnd_follows ho hk (by simpa using hs)

theorem readArgument_follows (ho : p.outline = ⟨f, par, .classType b :: fr⟩)
    (hk : Resumes ⟨f, par, fr⟩ k) (hs : p.shown ++ (if b then [] else ['<']) = seen) :
    Follows p seen c (readArgument (.classEnd :: k) c) := by
  cases c with
  | none => exact .refuse hs
  | some c =>
      simp only [readArgument]
      split
      · next hc =>
          refine .emit (prints_unboundedArgument ho) fun q hq hs' => ?_
          have hread : q.shown ++ [] = seen ++ (some c).toList := by simp [hs', ← hs, hc]
          exact .leave hq (.moreArguments hk) hread
      · split
        · refine .emit (prints_typeArgument ho) fun q hq hs' => ?_
          have hread : q.shown = seen := by simp [hs', ← hs, Wildcard.marker?]
          exact readReference_follows hq (.argument hk) hread
        · next hw =>
            refine .emit (prints_typeArgument ho) fun q hq hs' => ?_
            have hread : q.shown ++ [] = seen ++ (some c).toList := by
              simp [hs', ← hs, Wildcard.marker_ofChar hw]
            exact .leave hq (.referenceType (.argument hk)) hread

/-! ### Type parameters -/

theorem readFormal_follows {t : List Goal} (ho : p.outline = ⟨f, .notStarted, []⟩)
    (hf : f ≠ .closed) (ht : Tail t)
    (hs : p.shown ++ (if f = .notStarted then ['<'] else []) = seen) :
    Follows p seen c (readFormal t c) := by
  cases c with
  | none => exact .refuse hs
  | some c =>
      simp only [readFormal]
      split
      · exact .refuse hs
      · have hread : p.shown ++ ((if f = .notStarted then ['<'] else []) ++
            (String.singleton c).toList) = seen ++ (some c).toList := by simp [← hs]
        exact .leave ho (.formalName ht hf) hread

theorem step_moreFormals_follows {t : List Goal} (ho : p.outline = ⟨.inside, .notStarted, []⟩)
    (ht : Tail t) (hs : p.shown = seen) : Follows p seen c (step (.moreFormals :: t) c) := by
  rw [step]
  split
  · next hc =>
      have hread : p.shown ++ closing .inside = seen ++ c.toList := by simp [closing, hs, hc]
      exact .leave ho (.afterFormals ht) hread
  · exact readFormal_follows ho (by simp) ht (by simpa using hs)

theorem step_interfaceBounds_follows {t : List Goal}
    (ho : p.outline = ⟨.inside, .notStarted, []⟩) (ht : Tail t) (hs : p.shown = seen) :
    Follows p seen c (step (.interfaceBounds :: .moreFormals :: t) c) := by
  rw [step]
  split
  · next hc =>
      refine .emit (prints_put (t := ":") (by simp) rfl) fun q hq hs' => ?_
      have hread : q.shown ++ [] = seen ++ c.toList := by simp [hs', hs, hc]
      exact .leave (hq.trans ho) (.referenceType (.bound ht)) hread
  · exact step_moreFormals_follows ho ht hs

theorem step_classBound_follows {t : List Goal} (ho : p.outline = ⟨.inside, .notStarted, []⟩)
    (ht : Tail t) (hs : p.shown = seen) :
    Follows p seen c (step (.classBound :: .interfaceBounds :: .moreFormals :: t) c) := by
  rw [step]
  split
  · refine .emit prints_classBound fun q hq hs' => ?_
    have hread : q.shown = seen := by rw [hs', List.append_nil, hs]
    exact readReference_follows (hq.trans ho) (.bound ht) hread
  · exact step_interfaceBounds_follows ho ht hs

/-! ### What stands behind the type parameters -/

theorem step_afterFormals_follows {t : List Goal} (ho : p.outline = ⟨f, .notStarted, []⟩)
    (ht : Tail t) (hs : p.shown ++ closing f = seen) : Follows p seen c (step t c) := by
  cases ht with
  | ofClass =>
      rw [step]
      refine .emit (prints_superclass ho) fun q hq hs' => ?_
      have hread : q.shown = seen := by rw [hs', hs]
      exact readClass_follows hq (.interfaces afterFormals_ne_inside) hread
  | ofMethod =>
      rw [step]
      split
      · next hc =>
          have hread : p.shown ++ (closing f ++ ['(']) = seen ++ c.toList := by simp [← hs, hc]
          exact .leave ho .parameters hread
      · exact .refuse hs

theorem step_moreParameters_follows (ho : p.outline = ⟨f, par, []⟩) (hpar : par ≠ .closed)
    (hs : p.shown ++ (closing f ++ opening par) = seen) :
    Follows p seen c (step [.moreParameters, .returnType, .exceptions] c) := by
  rw [step]
  split
  · next hc =>
      have hread : p.shown ++ (closing f ++ opening par ++ [')']) = seen ++ c.toList := by
        simp [← hs, hc]
      exact .leave ho (.returnType hpar) hread
  · refine .emit (prints_parameterType ho hpar) fun q hq hs' => ?_
    have hread : q.shown = seen := by rw [hs', hs]
    exact readJava_follows hq (.parameter afterFormals_ne_inside) hread

theorem step_returnType_follows (ho : p.outline = ⟨f, par, []⟩) (hpar : par ≠ .closed)
    (hs : p.shown ++ (closing f ++ opening par ++ [')']) = seen) :
    Follows p seen c (step [.returnType, .exceptions] c) := by
  rw [step]
  refine .emit (prints_returnType ho hpar) fun q hq hs' => ?_
  have hread : q.shown = seen := by rw [hs', hs]
  have hk : Resumes ⟨afterFormals f, .closed, []⟩ [.exceptions] :=
    .exceptions afterFormals_ne_inside
  split
  · next hc =>
      refine .emit (prints_put (t := "V") (by simp) rfl) fun r hr hs'' => ?_
      have hread' : r.shown ++ [] = seen ++ c.toList := by simp [hs'', hread, hc]
      exact .leave (hr.trans hq) (.resumes hk) hread'
  · exact readJava_follows hq hk hread

theorem step_nil_follows (ho : p.outline = o) (hk : Resumes o []) (hs : p.shown = seen) :
    Follows p seen c (step [] c) := by
  have hread : p.shown ++ [] = seen := by rw [List.append_nil, hs]
  cases c with
  | none => exact .leave ho (.resumes hk) (by simpa using hread)
  | some c => exact .refuse hread

theorem step_resumes_follows (hk : Resumes o k) (ho : p.outline = o) (hs : p.shown = seen) :
    Follows p seen c (step k c) := by
  cases hk with
  | field hf hpar => exact step_nil_follows ho (.field hf hpar) hs
  | bound ht => exact step_interfaceBounds_follows ho ht hs
  | @interfaces f hf =>
      rw [step]
      split
      · exact step_nil_follows ho (.field hf (by simp)) hs
      · refine .emit (prints_interface ho) fun q hq hs' => ?_
        have hread : q.shown = seen := by simp [hs', hs, closing, hf]
        exact readClass_follows hq (.interfaces afterFormals_ne_inside) hread
  | parameter hf =>
      exact step_moreParameters_follows ho (by simp) (by simp [closing, opening, hf, hs])
  | exceptions hf =>
      rw [step]
      split
      · next hc =>
          have hread : p.shown ++ ['^'] = seen ++ c.toList := by simp [hs, hc]
          exact .leave ho (.exceptionType hf) hread
      · exact step_nil_follows ho (.field hf (by simp)) hs
  | argument hk =>
      rw [step]
      refine .emit (prints_close_argument ho) fun q hq hs' => ?_
      rw [step]
      split
      · next hc =>
          have hread : q.shown ++ ['>'] = seen ++ c.toList := by simp [hs', hs, hc]
          exact .leave hq (.classEnd hk) hread
      · exact readArgument_follows hq hk (by simp [hs', hs])

/-! ### Steps and scans -/

/-- **The printer follows the reader.** -/
theorem step_follows {g : List Goal} (h : Agrees o g u) (ho : p.outline = o)
    (hs : p.shown ++ u = seen) : Follows p seen c (step g c) := by
  cases h with
  | resumes hk => exact step_resumes_follows hk ho (by simpa using hs)
  | @formals t ht =>
      rw [step]
      split
      · next hc =>
          have hread : p.shown ++ ['<'] = seen ++ c.toList := by simp [← hs, hc]
          exact .leave ho (.firstFormal ht) hread
      · exact step_afterFormals_follows ho ht (by simpa [closing] using hs)
  | firstFormal ht =>
      rw [step]
      split
      · exact .stop hs
      · exact readFormal_follows ho (by simp) ht (by simpa using hs)
  | @formalName f t name ht hf =>
      rw [step]
      split
      · next d hd =>
          obtain ⟨rfl, -⟩ := continues?_eq_some_iff.1 hd
          have hread : p.shown ++ ((if f = .notStarted then ['<'] else []) ++
              (name.push d).toList) = seen ++ (some d).toList := by simp [← hs]
          exact .leave ho (.formalName ht hf) hread
      · split
        · next hc =>
            refine .emit (prints_formalParameter ho hf) fun q hq hs' => ?_
            have hread : q.shown ++ [] = seen ++ c.toList := by simp [hs', ← hs, hc]
            exact .leave hq (.classBound ht) hread
        · exact .refuse hs
  | classBound ht => exact step_classBound_follows ho ht (by simpa using hs)
  | afterFormals ht => exact step_afterFormals_follows ho ht hs
  | parameters => exact step_moreParameters_follows ho (by simp) hs
  | returnType hpar => exact step_returnType_follows ho hpar hs
  | exceptionType hf =>
      rw [step]
      split
      · refine .emit (prints_put (t := "^") (by simp) rfl) fun q hq hs' => ?_
        have hread : q.shown = seen := by rw [hs', ← hs]; rfl
        exact readReference_follows (hq.trans ho) (.exceptions hf) hread
      · exact .refuse hs
  | javaType hk => exact readJava_follows ho hk (by simpa using hs)
  | referenceType hk => exact readReference_follows ho hk (by simpa using hs)
  | @variableName o k name hk =>
      rw [step]
      split
      · next d hd =>
          obtain ⟨rfl, -⟩ := continues?_eq_some_iff.1 hd
          have hread : p.shown ++ 'T' :: (name.push d).toList = seen ++ (some d).toList := by
            simp [← hs]
          exact .leave ho (.variableName hk) hread
      · split
        · exact .refuse hs
        split
        · next hc =>
            refine .emit (prints_put (t := "T" ++ name ++ ";") (by simp) rfl) fun q hq hs' => ?_
            have hread : q.shown ++ [] = seen ++ c.toList := by simp [hs', ← hs, hc]
            exact .leave (hq.trans ho) (.resumes hk) hread
        · exact .refuse hs
  | @className o k name hk =>
      rw [step]
      split
      · next d hd =>
          obtain ⟨rfl, -⟩ := continues?_eq_some_iff.1 hd
          have hread : p.shown ++ 'L' :: (name.push d).toList = seen ++ (some d).toList := by
            simp [← hs]
          exact .leave ho (.className hk) hread
      · split
        · exact .refuse hs
        · obtain ⟨f, par, fr⟩ := o
          refine .emit (prints_classType ho) fun q hq hs' => ?_
          have hread : q.shown = seen := by rw [hs', hs]
          exact readClassTail_follows hq hk hread
  | @innerName f par fr b k name hk =>
      rw [step]
      split
      · next d hd =>
          obtain ⟨rfl, -⟩ := continues?_eq_some_iff.1 hd
          have hread : p.shown ++ ((if b then ['>'] else []) ++ '.' :: (name.push d).toList) =
              seen ++ (some d).toList := by simp [← hs]
          exact .leave ho (.innerName hk) hread
      · split
        · exact .refuse hs
        · -- the two events are one for the printer: the `;` between them is never written
          obtain ⟨q, hw, hq, hb, ht⟩ := write_close_classType ho
          obtain ⟨r, hw', hr, hs'⟩ := write_innerClassType name hq hb
          have hread : r.shown = seen := by rw [hs', ht, ← hs, List.append_assoc]
          obtain ⟨r', hr', hm⟩ : Follows r seen c (readClassTail k c) :=
            readClassTail_follows hr hk hread
          exact ⟨r', by simp only [Move.emit, writeAll, hw, hw', Except.bind, hr'], hm⟩
  | classEnd hk => exact readClassEnd_follows ho hk hs
  | firstArgument hk =>
      rw [step]
      split
      · exact .stop hs
      · exact readArgument_follows ho hk hs
  | moreArguments hk =>
      rw [step]
      split
      · next hc =>
          have hread : p.shown ++ ['>'] = seen ++ c.toList := by simpa [hc] using hs
          exact .leave ho (.classEnd hk) hread
      · exact readArgument_follows ho hk hs

theorem finish_eq_of_resumes (h : Resumes o []) (ho : p.outline = o) :
    p.finish = .ok (String.ofList p.shown) := by
  cases h with
  | field hf hpar =>
      rw [← outline_release, outline_eq_iff] at ho
      obtain ⟨rfl, rfl, hfr⟩ := ho
      simp only [finish, hfr, ne_eq, not_true_eq_false, if_false, if_neg hf, if_neg hpar]
      rw [← text_release, String.ofList_toList]

theorem shown_of_agrees_nil (h : Agrees o [] u) : Resumes o [] ∧ u = [] := by
  cases h with
  | resumes hk => exact ⟨hk, rfl⟩
  | afterFormals ht => cases ht

/-- A printer that agrees with a reader accepts all events of its scan and writes no more than was
read.  If there was no fault, it ends with all that was read. -/
theorem scan_follows {g : List Goal} {s : List Char} {offset : Nat}
    (h : Agrees o g u) (ho : p.outline = o) (hs : p.shown ++ u = seen) :
    ∃ q, p.writeAll (scan g offset s).events = .ok q ∧ q.text.toList <+: seen ++ s ∧
      ((scan g offset s).fault = none → q.finish = .ok (String.ofList (seen ++ s))) := by
  induction s generalizing p o g u seen offset with
  | nil =>
      obtain ⟨q, hq, hm⟩ := step_follows (c := none) h ho hs
      rw [scan, List.append_nil]
      rcases hst : step g none with ⟨es, next⟩
      rw [hst] at hq hm
      cases next with
      | error fault => exact ⟨q, hq, hm, by simp⟩
      | ok next =>
          have hn : next = [] := step_none_next (by rw [hst])
          subst hn
          obtain ⟨u', hu, hs'⟩ := hm
          obtain ⟨hk, rfl⟩ := shown_of_agrees_nil hu
          have hq' : q.shown = seen := by simpa using hs'
          refine ⟨q, hq, ?_, fun _ => ?_⟩
          · rw [← hq']
            exact text_prefix_shown
          · rw [finish_eq_of_resumes hk rfl, hq']
  | cons d s ih =>
      obtain ⟨q, hq, hm⟩ := step_follows (c := some d) h ho hs
      rw [scan]
      rcases hst : step g (some d) with ⟨es, next⟩
      rw [hst] at hq hm
      cases next with
      | error fault => exact ⟨q, hq, hm.trans (List.prefix_append _ _), by simp⟩
      | ok next =>
          obtain ⟨u', hu, hs'⟩ := hm
          obtain ⟨r, hr, ht, hf⟩ := @ih q _ u' _ next (offset + d.utf8Size) hu rfl hs'
          have ha : seen ++ (some d).toList ++ s = seen ++ d :: s := by simp
          rw [ha] at ht hf
          refine ⟨r, ?_, ht, hf⟩
          simp only [Scan.prepend, writeAll_append, hq, Except.bind, hr]

theorem agrees_start (kind : Kind) : Agrees Printer.empty.outline kind.goals [] := by
  cases kind with
  | classKind => exact .formals .ofClass
  | methodKind => exact .formals .ofMethod
  | fieldKind => exact .referenceType (.field (by decide) (by decide))

/-- What is read to its end is printed again from its events. -/
theorem printAll_of_completes {kind : Kind} {text : String} {es : List Event}
    (h : Completes kind.goals text.toList es) : printAll es = .ok text := by
  have hscan : scan kind.goals 0 text.toList = ⟨es, none⟩ := scan_eq_iff.2 h
  have hstart := agrees_start kind
  obtain ⟨q, hq, -, hf⟩ := scan_follows (p := Printer.empty) (s := text.toList) hstart rfl rfl
  rw [hscan] at hq hf
  have hfinish := hf rfl
  have hseen : Printer.empty.shown ++ [] ++ text.toList = text.toList := rfl
  rw [hseen, String.ofList_toList] at hfinish
  rw [printAll, hq]
  exact hfinish

/-- **Printing a walk gives back its text.**  The printer accepts the events of a walk one by one,
whether the text is accepted or not, and what it has written is always a beginning of the text. -/
theorem printAll_walk (kind : Kind) (text : String) :
    ((walk kind text).error = none → printAll (walk kind text).events = .ok text) ∧
      ∀ n, ∃ q, Printer.empty.writeAll ((walk kind text).events.take n) = .ok q ∧
        ∃ rest, text = q.text ++ rest := by
  have hstart := agrees_start kind
  obtain ⟨q, hq, ht, hf⟩ := scan_follows (p := Printer.empty) (s := text.toList) hstart rfl rfl
  have hw : (walk kind text).events = (scan kind.goals 0 text.toList).events := rfl
  have hseen : Printer.empty.shown ++ [] ++ text.toList = text.toList := rfl
  rw [hseen] at ht hf
  constructor
  · intro he
    have hn : (scan kind.goals 0 text.toList).fault = none := by
      simpa [walk] using he
    rw [printAll, hw, hq]
    rw [Except.bind, hf hn, String.ofList_toList]
  · intro n
    obtain ⟨r, hr, hrt⟩ := exists_writeAll_take hq n
    obtain ⟨rest, hrest⟩ := hrt.trans ht
    refine ⟨r, by rw [hw, hr], String.ofList rest, ?_⟩
    rw [← String.toList_inj, String.toList_append, String.toList_ofList, hrest]

theorem printAll_walk_bounded :
    printAll (walk .classKind "<T::Ljava/util/List<+TT;>;>Ljava/lang/Record;").events =
      .ok "<T::Ljava/util/List<+TT;>;>Ljava/lang/Record;" :=
  (printAll_walk .classKind "<T::Ljava/util/List<+TT;>;>Ljava/lang/Record;").1 (by decide)

end RecordRepair.Signature
