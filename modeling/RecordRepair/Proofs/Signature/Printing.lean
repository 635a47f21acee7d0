import RecordRepair.Signature.Printer

/-! # What a printer writes

* `Printer.outline` is what a printer has opened, and `Printer.shown` what it has written together
  with the `;` that it holds back.
* `Prints p e s o`: the printer `p` accepts the event `e`, writes `s`, and has the outline `o`
  afterwards.  There is one lemma for each event, but for an inner class: it takes back a `;` that
  was held back, so it does not only add to what is shown.
* `exists_writeAll_take`: what has been written stays, whatever is written next. -/

namespace RecordRepair.Signature

/-- What a printer has opened. -/
structure Outline where
  formals : Progress
  parameters : Progress
  frames : List Frame

namespace Printer

/-- What a printer has opened. -/
def outline (p : Printer) : Outline := ⟨p.formals, p.parameters, p.frames⟩

/-- What has been written, with the `;` that is held back. -/
def shown (p : Printer) : List Char := p.text.toList ++ if p.heldBack then [';'] else []

variable {p q : Printer} {f par : Progress} {fr : List Frame} {b : Bool}

@[simp] theorem outline_release : p.release.outline = p.outline := by
  unfold release
  split <;> rfl

@[simp] theorem heldBack_release : p.release.heldBack = false := by
  unfold release
  split
  · rfl
  · next h => simpa using h

@[simp] theorem text_release : p.release.text.toList = p.shown := by
  unfold release shown
  split <;> simp [put]

@[simp] theorem outline_put {t : String} : (p.put t).outline = p.outline := rfl

theorem outline_eq_iff :
    p.outline = ⟨f, par, fr⟩ ↔ p.formals = f ∧ p.parameters = par ∧ p.frames = fr := by
  simp [outline]

theorem shown_of_not_heldBack (h : p.heldBack = false) : p.shown = p.text.toList := by
  simp [shown, h]

theorem text_prefix_shown : p.text.toList <+: p.shown := List.prefix_append _ _

/-- The list of type parameters once something stands behind it. -/
def afterFormals (f : Progress) : Progress := if f = .inside then .closed else f

/-- The text that closes the list of type parameters if it is open. -/
def closing (f : Progress) : List Char := if f = .inside then ['>'] else []

/-- The text that opens the list of parameters if it has not been started. -/
def opening (par : Progress) : List Char := if par = .notStarted then ['('] else []

theorem afterFormals_ne_inside : afterFormals f ≠ .inside := by
  unfold afterFormals
  split <;> simp_all

theorem closeFormals_spec (ho : p.outline = ⟨f, par, fr⟩) (hb : p.heldBack = false) :
    p.closeFormals.outline = ⟨afterFormals f, par, fr⟩ ∧ p.closeFormals.heldBack = false ∧
      p.closeFormals.text.toList = p.text.toList ++ closing f := by
  obtain ⟨rfl, rfl, rfl⟩ := ho
  unfold closeFormals afterFormals closing
  split <;> simp_all [put, outline]

theorem openParameters_spec (ho : p.outline = ⟨f, par, fr⟩) (hb : p.heldBack = false)
    (hpar : par ≠ .closed) :
    p.openParameters.outline = ⟨f, .inside, fr⟩ ∧ p.openParameters.heldBack = false ∧
      p.openParameters.text.toList = p.text.toList ++ opening par := by
  obtain ⟨rfl, rfl, rfl⟩ := ho
  unfold openParameters opening
  split
  · simp_all [put, outline]
  · have : p.parameters = .inside := by
      cases h : p.parameters <;> simp_all
    simp_all [outline]

/-! ### What the events write -/

/-- The printer accepts an event, writes a text and has an outline afterwards. -/
def Prints (p : Printer) (e : Event) (s : List Char) (o : Outline) : Prop :=
  ∃ q, p.write e = .ok q ∧ q.outline = o ∧ q.shown = p.shown ++ s

theorem write_eq_writeSettled {e : Event} (he : ∀ name, e ≠ .innerClassType name) :
    p.write e = p.release.writeSettled e := by
  cases e with
  | innerClassType name => exact absurd rfl (he name)
  | _ => rfl

/-- Where nothing is held back afterwards, what is written is shown. -/
theorem prints_of_writeSettled {e : Event} {s : List Char} {o : Outline}
    (he : ∀ name, e ≠ .innerClassType name) (hw : p.release.writeSettled e = .ok q)
    (hb : q.heldBack = false) (ho : q.outline = o)
    (ht : q.text.toList = p.release.text.toList ++ s) : p.Prints e s o :=
  ⟨q, by rw [write_eq_writeSettled he, hw], ho,
    by rw [shown_of_not_heldBack hb, ht, text_release]⟩

theorem prints_put {e : Event} {t : String} (he : ∀ name, e ≠ .innerClassType name)
    (hw : p.release.writeSettled e = .ok (p.release.put t)) :
    p.Prints e t.toList p.outline :=
  prints_of_writeSettled he hw heldBack_release (by simp) (by simp [put])

theorem prints_classBound : p.Prints .classBound [] p.outline :=
  prints_of_writeSettled (by simp) rfl heldBack_release outline_release (by simp)

theorem prints_formalParameter {name : String} (ho : p.outline = ⟨f, par, fr⟩)
    (hf : f ≠ .closed) :
    p.Prints (.formalParameter name)
      ((if f = .notStarted then ['<'] else []) ++ name.toList ++ [':']) ⟨.inside, par, fr⟩ := by
  rw [← outline_release, outline_eq_iff] at ho
  obtain ⟨h₁, h₂, h₃⟩ := ho
  cases f with
  | notStarted =>
      refine prints_of_writeSettled (by simp) (by rw [writeSettled, writeFormal, h₁]) ?_ ?_ ?_
      · simp [put]
      · simp [outline, put, h₂, h₃]
      · simp [put]
  | inside =>
      refine prints_of_writeSettled (by simp) (by rw [writeSettled, writeFormal, h₁]) ?_ ?_ ?_
      · simp [put]
      · simp [outline, put, h₁, h₂, h₃]
      · simp [put]
  | closed => exact absurd rfl hf

theorem prints_superclass (ho : p.outline = ⟨f, par, fr⟩) :
    p.Prints .superclass (closing f) ⟨afterFormals f, par, fr⟩ := by
  rw [← outline_release] at ho
  obtain ⟨h₁, h₂, h₃⟩ := closeFormals_spec ho heldBack_release
  exact prints_of_writeSettled (by simp) rfl h₂ h₁ h₃

theorem prints_interface (ho : p.outline = ⟨f, par, fr⟩) :
    p.Prints .interface (closing f) ⟨afterFormals f, par, fr⟩ := prints_superclass ho

theorem prints_parameterType (ho : p.outline = ⟨f, par, fr⟩) (hpar : par ≠ .closed) :
    p.Prints .parameterType (closing f ++ opening par) ⟨afterFormals f, .inside, fr⟩ := by
  rw [← outline_release] at ho
  obtain ⟨h₁, h₂, h₃⟩ := closeFormals_spec ho heldBack_release
  obtain ⟨h₁', h₂', h₃'⟩ := openParameters_spec h₁ h₂ hpar
  exact prints_of_writeSettled (by simp) rfl h₂' h₁' (by rw [h₃', h₃, List.append_assoc])

theorem prints_returnType (ho : p.outline = ⟨f, par, fr⟩) (hpar : par ≠ .closed) :
    p.Prints .returnType (closing f ++ opening par ++ [')']) ⟨afterFormals f, .closed, fr⟩ := by
  rw [← outline_release] at ho
  obtain ⟨h₁, h₂, h₃⟩ := closeFormals_spec ho heldBack_release
  obtain ⟨h₁', h₂', h₃'⟩ := openParameters_spec h₁ h₂ hpar
  rw [outline_eq_iff] at h₁'
  refine prints_of_writeSettled (by simp) rfl h₂' ?_ ?_
  · simp [outline, put, h₁']
  · simp only [put, String.toList_append, h₃', h₃, List.append_assoc]
    rfl

theorem prints_classType {name : String} (ho : p.outline = ⟨f, par, fr⟩) :
    p.Prints (.classType name) ('L' :: name.toList) ⟨f, par, .classType false :: fr⟩ := by
  rw [← outline_release, outline_eq_iff] at ho
  refine prints_of_writeSettled (by simp) rfl heldBack_release ?_ (by simp [put, enter])
  simp [outline, put, enter, ho]

theorem openArguments_spec (ho : p.outline = ⟨f, par, .classType b :: fr⟩) :
    ∃ q, p.openArguments = .ok q ∧ q.outline = ⟨f, par, .classType true :: fr⟩ ∧
      q.heldBack = p.heldBack ∧ q.text.toList = p.text.toList ++ if b then [] else ['<'] := by
  rw [outline_eq_iff] at ho
  obtain ⟨h₁, h₂, h₃⟩ := ho
  cases b with
  | true => exact ⟨p, by simp [openArguments, h₃], by simp [outline, h₁, h₂, h₃], rfl, by simp⟩
  | false =>
      refine ⟨{ p.put "<" with frames := .classType true :: fr }, ?_, ?_, rfl, ?_⟩
      · rw [openArguments, h₃]
      · simp [outline, put, h₁, h₂]
      · simp [put]

theorem prints_typeArgument {w : Wildcard} (ho : p.outline = ⟨f, par, .classType b :: fr⟩) :
    p.Prints (.typeArgument w) ((if b then [] else ['<']) ++ w.marker?.toList)
      ⟨f, par, .argument :: .classType true :: fr⟩ := by
  rw [← outline_release] at ho
  obtain ⟨q, hq, h₁, h₂, h₃⟩ := openArguments_spec ho
  rw [outline_eq_iff] at h₁
  refine prints_of_writeSettled (by simp) (by rw [writeSettled, hq]; rfl) ?_ ?_ ?_
  · rw [← heldBack_release (p := p), ← h₂]
    rfl
  · simp [outline, put, enter, h₁]
  · cases w <;> simp [put, enter, h₃, Wildcard.marker?]

theorem prints_unboundedArgument (ho : p.outline = ⟨f, par, .classType b :: fr⟩) :
    p.Prints .unboundedArgument ((if b then [] else ['<']) ++ ['*'])
      ⟨f, par, .classType true :: fr⟩ := by
  rw [← outline_release] at ho
  obtain ⟨q, hq, h₁, h₂, h₃⟩ := openArguments_spec ho
  refine prints_of_writeSettled (q := q.put "*") (by simp) (by rw [writeSettled, hq]; rfl) ?_ h₁ ?_
  · rw [← heldBack_release (p := p), ← h₂]
    rfl
  · simp [put, h₃]

theorem prints_close_argument (ho : p.outline = ⟨f, par, .argument :: fr⟩) :
    p.Prints .close [] ⟨f, par, fr⟩ := by
  rw [← outline_release, outline_eq_iff] at ho
  obtain ⟨h₁, h₂, h₃⟩ := ho
  refine prints_of_writeSettled (q := { p.release with frames := fr }) (by simp) ?_
    heldBack_release ?_ (by simp)
  · rw [writeSettled, writeClose, h₃]
  · simp [outline, h₁, h₂]

/-- A finished class type is written up to its `;`, which is held back. -/
theorem write_close_classType (ho : p.outline = ⟨f, par, .classType b :: fr⟩) :
    ∃ q, p.write .close = .ok q ∧ q.outline = ⟨f, par, fr⟩ ∧ q.heldBack = true ∧
      q.text.toList = p.shown ++ if b then ['>'] else [] := by
  rw [← outline_release, outline_eq_iff] at ho
  obtain ⟨h₁, h₂, h₃⟩ := ho
  refine ⟨_, by rw [write_eq_writeSettled (by simp), writeSettled, writeClose, h₃], ?_, rfl, ?_⟩
  · simp [outline, put, h₁, h₂]
  · cases b <;> simp [put]

theorem prints_close_classType (ho : p.outline = ⟨f, par, .classType b :: fr⟩) :
    p.Prints .close ((if b then ['>'] else []) ++ [';']) ⟨f, par, fr⟩ := by
  obtain ⟨q, hw, ho, hb, ht⟩ := write_close_classType ho
  exact ⟨q, hw, ho, by rw [shown, hb, ht]; simp⟩

/-- An inner class takes the place of the `;` that was held back. -/
theorem write_innerClassType (name : String) (ho : p.outline = ⟨f, par, fr⟩)
    (hb : p.heldBack = true) :
    ∃ q, p.write (.innerClassType name) = .ok q ∧
      q.outline = ⟨f, par, .classType false :: fr⟩ ∧
      q.shown = p.text.toList ++ '.' :: name.toList := by
  rw [outline_eq_iff] at ho
  refine ⟨_, by rw [write, settle, writeSettled, if_pos hb], ?_, ?_⟩
  · simp [outline, put, enter, ho]
  · simp [shown, put, enter]

end Printer

/-! ### What is written stays -/

namespace Printer

variable {p q : Printer}

theorem text_prefix_put (p : Printer) (t : String) : p.text.toList <+: (p.put t).text.toList := by
  simp [put]

theorem text_prefix_release (p : Printer) : p.text.toList <+: p.release.text.toList := by
  rw [text_release]
  exact text_prefix_shown

theorem text_prefix_closeFormals (p : Printer) :
    p.text.toList <+: p.closeFormals.text.toList := by
  unfold closeFormals
  split
  · exact text_prefix_put p ">"
  · exact List.prefix_rfl

theorem text_prefix_openParameters (p : Printer) :
    p.text.toList <+: p.openParameters.text.toList := by
  unfold openParameters
  split
  · exact text_prefix_put p "("
  · exact List.prefix_rfl

theorem text_prefix_openArguments (h : p.openArguments = .ok q) :
    p.text.toList <+: q.text.toList := by
  unfold openArguments at h
  split at h
  · cases h
    exact List.prefix_rfl
  · cases h
    exact text_prefix_put p "<"
  · cases h

theorem text_prefix_map_openArguments {change : Printer → Printer}
    (hc : ∀ r : Printer, r.text.toList <+: (change r).text.toList)
    (h : p.openArguments.map change = .ok q) : p.text.toList <+: q.text.toList := by
  cases hr : p.openArguments with
  | error error =>
      rw [hr] at h
      cases h
  | ok r =>
      rw [hr] at h
      cases h
      exact (text_prefix_openArguments hr).trans (hc r)

theorem text_prefix_writeFormal {name : String} (h : p.writeFormal name = .ok q) :
    p.text.toList <+: q.text.toList := by
  unfold writeFormal at h
  split at h
  · cases h
    exact text_prefix_put p _
  · cases h
    exact text_prefix_put p _
  · cases h

theorem text_prefix_writeClose (h : p.writeClose = .ok q) : p.text.toList <+: q.text.toList := by
  unfold writeClose at h
  split at h
  · cases h
  · cases h
    exact List.prefix_rfl
  · cases h
    exact text_prefix_put p _

theorem text_prefix_writeSettled {e : Event} (h : p.writeSettled e = .ok q) :
    p.text.toList <+: q.text.toList := by
  cases e with
  | formalParameter name => exact text_prefix_writeFormal h
  | close => exact text_prefix_writeClose h
  | classBound =>
      cases h
      exact List.prefix_rfl
  | superclass | interface =>
      cases h
      exact text_prefix_closeFormals p
  | parameterType =>
      cases h
      exact (text_prefix_closeFormals p).trans (text_prefix_openParameters _)
  | returnType =>
      cases h
      exact (text_prefix_closeFormals p).trans
        ((text_prefix_openParameters _).trans (text_prefix_put _ ")"))
  | innerClassType name =>
      rw [writeSettled] at h
      split at h
      · cases h
        exact text_prefix_put p _
      · cases h
  | typeArgument w =>
      refine text_prefix_map_openArguments (fun r => ?_) h
      exact text_prefix_put r _
  | unboundedArgument =>
      refine text_prefix_map_openArguments (fun r => ?_) h
      exact text_prefix_put r "*"
  | _ =>
      cases h
      exact text_prefix_put p _

/-- No event takes back what has been written. -/
theorem text_prefix_write {e : Event} (h : p.write e = .ok q) :
    p.text.toList <+: q.text.toList := by
  refine List.IsPrefix.trans ?_ (text_prefix_writeSettled h)
  unfold settle
  split
  · exact List.prefix_rfl
  · exact text_prefix_release p

theorem writeAll_append {es fs : List Event} :
    p.writeAll (es ++ fs) = (p.writeAll es).bind fun q => q.writeAll fs := by
  induction es generalizing p with
  | nil => rfl
  | cons e es ih =>
      simp only [List.cons_append, writeAll]
      cases p.write e with
      | error fault => rfl
      | ok q => exact ih

/-- The printer accepts every beginning of what it accepts, and has then written a beginning of
the text. -/
theorem exists_writeAll_take {es : List Event} (h : p.writeAll es = .ok q) (n : Nat) :
    ∃ r, p.writeAll (es.take n) = .ok r ∧ r.text.toList <+: q.text.toList := by
  induction es generalizing p n with
  | nil =>
      cases h
      exact ⟨q, by rw [List.take_nil]; rfl, List.prefix_rfl⟩
  | cons e es ih =>
      simp only [writeAll] at h
      cases hw : p.write e with
      | error fault => simp [hw, Except.bind] at h
      | ok r =>
          simp only [hw, Except.bind] at h
          cases n with
          | zero =>
              obtain ⟨r', hr', ht⟩ := ih h 0
              cases hr'
              exact ⟨p, rfl, (text_prefix_write hw).trans ht⟩
          | succ n =>
              obtain ⟨r', hr', ht⟩ := ih h n
              refine ⟨r', ?_, ht⟩
              simp only [List.take_succ_cons, writeAll, hw, Except.bind, hr']

end Printer

end RecordRepair.Signature
