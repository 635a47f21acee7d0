import RecordRepair.Proofs.Signature.Reading
import RecordRepair.Signature.Tree

/-! # Reading the text of a tree

The text of a well-formed tree is read as the events of the tree.

* `Begins m s es k`: the first character of `s` is taken by `m`, which is `step` of some goals or
  one of its helpers; reading all of `s` gives the events `es` and leaves the goals `k`.  The
  helpers call each other on the same character, so a tree is read from any of them that can begin
  it.
* `TypeTree.begins`, `ArgumentTrees.begins` and `InnerTrees.begins` follow the recursion of the
  trees.
* `FormalTree.areWellFormed_cons_iff`: a list of type parameters is well formed if each of them is
  and a class bound is left out only where the text does not go on like one (`NoBound`).
* `Tree.completes` is the case of a whole signature, and `Tree.walk_eq` says it of walks. -/

namespace RecordRepair.Signature

variable {k left : List Goal} {s t : List Char} {es fs : List Event}

/-! ### Texts that a move begins -/

/-- The first character of a text is taken by `m`, and reading all of it gives some events and
leaves some goals. -/
def Begins (m : Option Char → Move) (s : List Char) (es : List Event) (left : List Goal) : Prop :=
  ∃ c s' next fs gs, s = c :: s' ∧ m (some c) = ⟨fs, .ok next⟩ ∧ Reads next s' gs left ∧
    es = fs ++ gs

theorem Begins.trans {m : Option Char → Move} (h : Begins m s es k) (hr : Reads k t fs left) :
    Begins m (s ++ t) (es ++ fs) left := by
  obtain ⟨c, s', next, gs, hs, rfl, hm, hn, rfl⟩ := h
  exact ⟨c, s' ++ t, next, gs, hs ++ fs, rfl, hm, hn.trans hr, by rw [List.append_assoc]⟩

/-- A move that takes what another one takes begins the same texts. -/
theorem Begins.of_move {m m' : Option Char → Move} (before : List Event) (h : Begins m s es left)
    (hm : ∀ c fs next, m (some c) = ⟨fs, .ok next⟩ → m' (some c) = ⟨before ++ fs, .ok next⟩) :
    Begins m' s (before ++ es) left := by
  obtain ⟨c, s', next, gs, hs, rfl, hc, hn, rfl⟩ := h
  exact ⟨c, s', next, before ++ gs, hs, rfl, hm c gs next hc, hn, by rw [List.append_assoc]⟩

theorem Begins.reads {goals : List Goal} (h : Begins (step goals) s es left) :
    Reads goals s es left := by
  obtain ⟨c, s', next, gs, hs, rfl, hc, hn, rfl⟩ := h
  exact Reads.step hc hn

theorem begins_of_reads {m : Option Char → Move} {c : Char} {e : List Event} {next : List Goal}
    (hm : m (some c) = ⟨e, .ok next⟩) (hr : Reads next s es left) :
    Begins m (c :: s) (e ++ es) left := ⟨c, s, next, e, es, rfl, hm, hr, rfl⟩

/-! ### Names -/

/-- The characters of a name are put behind what has been read of it. -/
theorem reads_name (goal : String → Goal) {ends : Char → Bool}
    (hstep : ∀ name d, ends d = false →
      step (goal name :: k) (some d) = .leave (goal (name.push d) :: k))
    (name : String) (hs : ∀ c ∈ s, ends c = false) :
    Reads (goal name :: k) s [] (goal (name ++ String.ofList s) :: k) := by
  induction s generalizing name with
  | nil =>
      rw [String.ofList_nil, String.append_empty]
      exact Reads.refl _
  | cons d s ih =>
      have hd := hs d List.mem_cons_self
      have hr := ih (name.push d) fun c hc => hs c (List.mem_cons_of_mem d hc)
      have hn : name.push d ++ String.ofList s = name ++ String.ofList (d :: s) := by
        rw [← String.toList_inj]
        simp
      rw [hn] at hr
      exact Reads.step (hstep name d hd) hr

theorem continues?_of_not_ends {ends : Char → Bool} {d : Char} (h : ends d = false) :
    continues? ends (some d) = some d := continues?_eq_some_iff.2 ⟨rfl, h⟩

theorem continues?_of_ends {ends : Char → Bool} {d : Char} (h : ends d = true) :
    continues? ends (some d) = none := by
  simp [continues?, Option.filter, h]

theorem reads_className {name : String} (h : isName endsClassName name = true) :
    Reads (.className "" :: k) name.toList [] (.className name :: k) := by
  have hr := reads_name .className (k := k) (fun n d hd => by
    rw [step, continues?_of_not_ends hd]) "" (isName_iff.1 h).2
  rwa [String.ofList_toList, String.empty_append] at hr

theorem reads_innerName {name : String} (h : isName endsName name = true) :
    Reads (.innerName "" :: k) name.toList [] (.innerName name :: k) := by
  have hr := reads_name .innerName (k := k) (fun n d hd => by
    rw [step, continues?_of_not_ends hd]) "" (isName_iff.1 h).2
  rwa [String.ofList_toList, String.empty_append] at hr

theorem reads_variableName {name : String} (h : isName endsName name = true) :
    Reads (.variableName "" :: k) name.toList [] (.variableName name :: k) := by
  have hr := reads_name .variableName (k := k) (fun n d hd => by
    rw [step, continues?_of_not_ends hd]) "" (isName_iff.1 h).2
  rwa [String.ofList_toList, String.empty_append] at hr

/-! ### Types -/

theorem ends_of_readClassTail {c : Char} (h : readClassTail k (some c) = ⟨es, .ok left⟩) :
    endsClassName c = true := by
  rw [readClassTail_eq_ok_iff, readClassEnd_eq_ok_iff] at h
  rcases h with ⟨hc, -⟩ | ⟨hc, -⟩ | ⟨hc, -⟩
  all_goals
    obtain rfl := Option.some.inj hc
    decide

theorem endsName_of_endsClassName {c : Char} (h : endsClassName c = true) : endsName c = true := by
  rw [endsName, h, Bool.true_or]

/-- What stands behind the name of a class ends the name. -/
theorem Begins.after_className {name : String} (hn : name ≠ "")
    (h : Begins (readClassTail k) s es left) :
    Begins (Signature.step (.className name :: k)) s (.classType name :: es) left := by
  refine h.of_move [.classType name] fun c fs next hc => ?_
  rw [Signature.step, continues?_of_ends (ends_of_readClassTail hc)]
  simp only [hn, if_false, hc]
  rfl

theorem Begins.after_innerName {name : String} (hn : name ≠ "")
    (h : Begins (readClassTail k) s es left) :
    Begins (Signature.step (.innerName name :: k)) s (.close :: .innerClassType name :: es)
      left := by
  refine h.of_move [.close, .innerClassType name] fun c fs next hc => ?_
  have he := endsName_of_endsClassName (ends_of_readClassTail hc)
  rw [Signature.step, continues?_of_ends he]
  simp only [hn, if_false, hc]
  rfl

theorem Begins.java (h : Begins (readReference k) s es left) : Begins (readJava k) s es left :=
  h.of_move [] fun _ _ _ hc => readJava_eq_ok_iff.2 (Or.inr hc)

theorem begins_java {type : TypeTree}
    (h : type.isReference = true → Begins (readReference k) type.chars type.events k) :
    Begins (readJava k) type.chars type.events k := by
  cases hr : type.isReference with
  | true => exact (h hr).java
  | false =>
      cases type with
      | base b =>
          exact begins_of_reads (readJava_eq_ok_iff.2 (Or.inl ⟨b, rfl, rfl, rfl⟩)) (.refl k)
      | typeVariable _ => cases hr
      | array _ => cases hr
      | ofClass _ _ _ => cases hr

theorem ne_close_of_readArgument {c : Char} (h : readArgument k (some c) = ⟨es, .ok left⟩) :
    c ≠ '>' := by
  rintro rfl
  rcases readArgument_cases h with ⟨hc, -⟩ | ⟨w, hw, -⟩ | ⟨fs, hr, -⟩
  · exact absurd hc (by decide)
  · cases w <;> exact absurd hw (by decide)
  · rw [readReference_eq_ok_iff] at hr
    rcases hr with ⟨hc, -⟩ | ⟨hc, -⟩ | ⟨hc, -⟩ <;> exact absurd hc (by decide)

theorem Begins.firstArgument (h : Begins (readArgument k) s es left) :
    Begins (Signature.step (.firstArgument :: k)) s es left :=
  h.of_move [] fun c fs next hc => by
    have hd : some c ≠ some '>' := fun he => ne_close_of_readArgument hc (Option.some.inj he)
    rw [Signature.step, if_neg hd, hc, List.nil_append]

theorem Begins.moreArguments (h : Begins (readArgument k) s es left) :
    Begins (Signature.step (.moreArguments :: k)) s es left :=
  h.of_move [] fun c fs next hc => by
    have hd : some c ≠ some '>' := fun he => ne_close_of_readArgument hc (Option.some.inj he)
    rw [Signature.step, if_neg hd, hc, List.nil_append]

theorem begins_moreArguments {arguments : ArgumentTrees}
    (h : arguments ≠ .nil → Begins (readArgument k) (arguments.chars ++ ['>']) arguments.events k) :
    Begins (step (.moreArguments :: k)) (arguments.chars ++ ['>']) arguments.events k := by
  by_cases hn : arguments = .nil
  · subst hn
    exact begins_of_reads (c := '>') (s := []) (e := []) rfl (.refl k)
  · exact (h hn).moreArguments

theorem ArgumentTrees.listChars_eq {arguments : ArgumentTrees} (h : arguments ≠ .nil) :
    arguments.listChars = '<' :: (arguments.chars ++ ['>']) := by
  cases arguments with
  | nil => exact absurd rfl h
  | unbounded rest => rfl
  | bounded wildcard type rest => simp [listChars, chars]

theorem Begins.classTail (h : Begins (readClassEnd k) s es left) :
    Begins (readClassTail k) s es left :=
  h.of_move [] fun _ _ _ hc => readClassTail_eq_ok_iff.2 (Or.inr hc)

theorem begins_classTail {arguments : ArgumentTrees} {inner : InnerTrees}
    (ha : arguments ≠ .nil → Begins (readArgument (.classEnd :: k)) (arguments.chars ++ ['>'])
      arguments.events (.classEnd :: k))
    (hi : Begins (readClassEnd k) (inner.chars ++ [';']) (.close :: inner.events) k) :
    Begins (readClassTail k) (arguments.listChars ++ (inner.chars ++ [';']))
      (arguments.events ++ .close :: inner.events) k := by
  by_cases hn : arguments = .nil
  · subst hn
    exact hi.classTail
  · have hf : Begins (step (.firstArgument :: .classEnd :: k)) (arguments.chars ++ ['>'])
        arguments.events (.classEnd :: k) := (ha hn).firstArgument
    have he : Begins (step (.classEnd :: k)) (inner.chars ++ [';']) (.close :: inner.events) k :=
      hi
    rw [ArgumentTrees.listChars_eq hn, List.cons_append]
    exact begins_of_reads (c := '<') (e := []) rfl (hf.reads.trans he.reads)

/-- A finished type argument is closed by what stands behind it. -/
theorem Begins.after_argument (h : Begins (Signature.step k) s es left) :
    Begins (Signature.step (.argumentEnd :: k)) s (.close :: es) left := by
  refine h.of_move [.close] fun c fs next hc => ?_
  rw [Signature.step, hc]
  rfl

theorem begins_bounded {wildcard : Wildcard}
    (h : Begins (readReference (.argumentEnd :: .moreArguments :: k)) s es left) :
    Begins (readArgument k) (wildcard.marker?.toList ++ s) (.typeArgument wildcard :: es) left := by
  have hs : Begins (step (.referenceType :: .argumentEnd :: .moreArguments :: k)) s es left := h
  cases wildcard with
  | exact =>
      refine h.of_move [.typeArgument .exact] fun c fs next hc => ?_
      have hd := readReference_eq_ok_iff.1 hc
      rcases hd with ⟨hd, -⟩ | ⟨hd, -⟩ | ⟨hd, -⟩
      all_goals
        obtain rfl := Option.some.inj hd
        rw [readArgument, if_neg (by decide)]
        simp only [Wildcard.ofChar, Char.reduceEq, if_false, hc]
        rfl
  | extending => exact begins_of_reads (c := '+') (e := [.typeArgument .extending]) rfl hs.reads
  | super => exact begins_of_reads (c := '-') (e := [.typeArgument .super]) rfl hs.reads

mutual

/-- A reference type is read as its events. -/
theorem TypeTree.begins (k : List Goal) : (type : TypeTree) → type.isReference = true →
    type.isWellFormed = true → Begins (readReference k) type.chars type.events k
  | .base _, hr, _ => by cases hr
  | .typeVariable name, _, hw => by
      obtain ⟨hn, -⟩ := isName_iff.1 hw
      have he : step (.variableName name :: k) (some ';') = ⟨[.typeVariable name], .ok k⟩ := by
        rw [step, continues?_of_ends (by decide)]
        simp [hn]
      exact begins_of_reads (c := 'T') (e := []) rfl ((reads_variableName hw).trans (.single he))
  | .array component, _, hw => by
      have hc : Begins (step (.javaType :: k)) component.chars component.events k :=
        begins_java fun hr => TypeTree.begins k component hr hw
      exact begins_of_reads (c := '[') (e := [.arrayType]) rfl hc.reads
  | .ofClass name arguments inner, _, hw => by
      rw [TypeTree.isWellFormed, Bool.and_eq_true, Bool.and_eq_true] at hw
      obtain ⟨⟨hn, ha⟩, hi⟩ := hw
      have ht := begins_classTail
        (fun hne => ArgumentTrees.begins (.classEnd :: k) arguments hne ha)
        (InnerTrees.begins k inner hi)
      have hr := (reads_className hn).trans (ht.after_className (isName_iff.1 hn).1).reads
      exact begins_of_reads (c := 'L') (e := []) rfl hr

theorem ArgumentTrees.begins (k : List Goal) : (arguments : ArgumentTrees) → arguments ≠ .nil →
    arguments.isWellFormed = true →
    Begins (readArgument k) (arguments.chars ++ ['>']) arguments.events k
  | .nil, hn, _ => absurd rfl hn
  | .unbounded rest, _, hw => by
      have hr := begins_moreArguments fun hn => ArgumentTrees.begins k rest hn hw
      exact begins_of_reads (c := '*') (e := [.unboundedArgument]) rfl hr.reads
  | .bounded wildcard type rest, _, hw => by
      rw [ArgumentTrees.isWellFormed, Bool.and_eq_true, Bool.and_eq_true] at hw
      obtain ⟨⟨ht, htw⟩, hw⟩ := hw
      have hr := begins_moreArguments fun hn => ArgumentTrees.begins k rest hn hw
      have hb := (TypeTree.begins (.argumentEnd :: .moreArguments :: k) type ht htw).trans
        hr.after_argument.reads
      have hc : (ArgumentTrees.bounded wildcard type rest).chars ++ ['>'] =
          wildcard.marker?.toList ++ (type.chars ++ (rest.chars ++ ['>'])) := by
        simp [ArgumentTrees.chars]
      rw [hc]
      exact begins_bounded hb

theorem InnerTrees.begins (k : List Goal) : (inner : InnerTrees) → inner.isWellFormed = true →
    Begins (readClassEnd k) (inner.chars ++ [';']) (.close :: inner.events) k
  | .nil, _ => begins_of_reads (c := ';') (s := []) (e := [.close]) rfl (.refl k)
  | .cons name arguments inner, hw => by
      rw [InnerTrees.isWellFormed, Bool.and_eq_true, Bool.and_eq_true] at hw
      obtain ⟨⟨hn, ha⟩, hi⟩ := hw
      have ht := begins_classTail
        (fun hne => ArgumentTrees.begins (.classEnd :: k) arguments hne ha)
        (InnerTrees.begins k inner hi)
      have hr := (reads_innerName hn).trans (ht.after_innerName (isName_iff.1 hn).1).reads
      have hc : (InnerTrees.cons name arguments inner).chars ++ [';'] =
          '.' :: (name.toList ++ (arguments.listChars ++ (inner.chars ++ [';']))) := by
        simp [InnerTrees.chars]
      rw [hc]
      exact begins_of_reads (c := '.') (e := []) rfl hr

end

/-- A type that begins with an `L` is a class. -/
theorem Begins.of_class (h : Begins (readJava k) s es left) (hc : s.head? = some 'L') :
    Begins (readClass k) s es left := by
  obtain ⟨c, s', next, gs, fs, rfl, hm, hr, rfl⟩ := h
  obtain rfl := Option.some.inj hc
  exact ⟨'L', s', next, gs, fs, rfl, hm, hr, rfl⟩

theorem Begins.of_throwable (h : Begins (readJava k) s es left)
    (hc : s.head? = some 'L' ∨ s.head? = some 'T') : Begins (readReference k) s es left := by
  obtain ⟨c, s', next, gs, fs, rfl, hm, hr, rfl⟩ := h
  rcases hc with hc | hc
  all_goals
    obtain rfl := Option.some.inj hc
    exact ⟨_, s', next, gs, fs, rfl, hm, hr, rfl⟩

theorem TypeTree.head?_of_isClass {type : TypeTree} (hc : type.isClass = true) :
    type.chars.head? = some 'L' := by
  cases type <;> first | rfl | cases hc

theorem TypeTree.head?_of_isThrowable {type : TypeTree} (ht : type.isThrowable = true) :
    type.chars.head? = some 'L' ∨ type.chars.head? = some 'T' := by
  cases type <;> first | exact .inl rfl | exact .inr rfl | cases ht

theorem TypeTree.begins_any {type : TypeTree} (hw : type.isWellFormed = true) :
    Begins (readJava k) type.chars type.events k :=
  begins_java fun hr => TypeTree.begins k type hr hw

theorem TypeTree.begins_class {type : TypeTree} (hc : type.isClass = true)
    (hw : type.isWellFormed = true) : Begins (readClass k) type.chars type.events k :=
  (TypeTree.begins_any hw).of_class (TypeTree.head?_of_isClass hc)

/-! ### Type parameters -/

/-- Behind the name of a type parameter stands its class bound. -/
theorem begins_formalName {name : String} (hn : isName endsName name = true) :
    Begins (readFormal k) (name.toList ++ [':']) [.formalParameter name]
      (.classBound :: .interfaceBounds :: .moreFormals :: k) := by
  obtain ⟨hne, hc⟩ := isName_iff.1 hn
  cases hs : name.toList with
  | nil => exact absurd (String.toList_eq_nil_iff.1 hs) hne
  | cons c cs =>
      rw [hs] at hc
      have hr := reads_name .formalName (k := k) (fun n d hd => by
        rw [step, continues?_of_not_ends hd]) (String.singleton c)
        fun d hd => hc d (List.mem_cons_of_mem c hd)
      have hname : String.singleton c ++ String.ofList cs = name := by
        rw [← String.toList_inj]
        simp [hs]
      rw [hname] at hr
      have he : step (.formalName name :: k) (some ':') = ⟨[.formalParameter name],
          .ok (.classBound :: .interfaceBounds :: .moreFormals :: k)⟩ := by
        rw [step, continues?_of_ends (by decide)]
        rfl
      exact begins_of_reads (e := []) (readFormal_eq_ok_iff.2 ⟨hc c List.mem_cons_self, rfl, rfl⟩)
        (hr.trans (.single he))

/-- Behind the last interface bound another type parameter may stand. -/
theorem Begins.without_interfaceBounds (h : Begins (Signature.step (.moreFormals :: k)) s es left) :
    Begins (Signature.step (.interfaceBounds :: .moreFormals :: k)) s es left := by
  refine h.of_move [] fun c fs next hc => ?_
  have hd : some c ≠ some ':' := by
    rintro hd
    obtain rfl := Option.some.inj hd
    simp [Signature.step, readFormal, endsName, endsClassName] at hc
  rw [Signature.step, if_neg hd, hc, List.nil_append]

/-- The interface bounds end where a type parameter or the end of the list stands. -/
theorem begins_interfaceBounds {bounds : List TypeTree}
    (hb : ∀ b ∈ bounds, b.isReference = true ∧ b.isWellFormed = true)
    (h : Begins (step (.moreFormals :: k)) s es left) :
    Begins (step (.interfaceBounds :: .moreFormals :: k))
      ((bounds.flatMap fun b => ':' :: b.chars) ++ s)
      ((bounds.flatMap fun b => .interfaceBound :: b.events) ++ es) left := by
  induction bounds with
  | nil => exact h.without_interfaceBounds
  | cons b bounds ih =>
      obtain ⟨hr, hw⟩ := hb b List.mem_cons_self
      have ht : Begins (step (.referenceType :: .interfaceBounds :: .moreFormals :: k)) b.chars
          b.events _ := TypeTree.begins _ b hr hw
      have hi := ih fun b hm => hb b (List.mem_cons_of_mem _ hm)
      rw [List.flatMap_cons, List.flatMap_cons, List.append_assoc, List.append_assoc]
      exact begins_of_reads (c := ':') (e := [.interfaceBound]) rfl (ht.reads.trans hi.reads)

/-- A text does not begin like a bound. -/
def NoBound (t : List Char) : Prop := ∀ c ∈ t.head?, c ≠ 'L' ∧ c ≠ 'T' ∧ c ≠ '['

@[simp] theorem noBound_cons_iff {c : Char} :
    NoBound (c :: t) ↔ c ≠ 'L' ∧ c ≠ 'T' ∧ c ≠ '[' := by
  simp [NoBound]

/-- Only the first character counts. -/
theorem noBound_append_cons_iff {c : Char} {u : List Char} :
    NoBound (s ++ c :: t) ↔ NoBound (s ++ c :: u) := by
  cases s <;> simp

/-- A missing class bound is passed over if what stands there does not look like one. -/
theorem Begins.without_classBound (h : Begins (Signature.step k) s es left) (hs : NoBound s) :
    Begins (Signature.step (.classBound :: k)) s es left := by
  obtain ⟨c, s', next, gs, fs, rfl, hm, hr, rfl⟩ := h
  obtain ⟨hl, ht, ha⟩ := noBound_cons_iff.1 hs
  refine ⟨c, s', next, gs, fs, rfl, ?_, hr, rfl⟩
  rw [Signature.step, if_neg (by simp [hl, ht, ha]), hm]

theorem Begins.classBound (h : Begins (readReference k) s es left) :
    Begins (Signature.step (.classBound :: k)) s (.classBound :: es) left := by
  refine h.of_move [.classBound] fun c fs next hc => ?_
  have hd := readReference_eq_ok_iff.1 hc
  have hd' : some c = some 'L' ∨ some c = some 'T' ∨ some c = some '[' :=
    hd.imp And.left (Or.imp And.left And.left)
  rw [Signature.step, if_pos hd', hc]
  rfl

namespace FormalTree

variable {formal : FormalTree} {rest : List FormalTree}

/-- The text of the interface bounds of a type parameter. -/
def interfaceChars (formal : FormalTree) : List Char :=
  formal.interfaceBounds.flatMap fun bound => ':' :: bound.chars

theorem isName_of_isWellFormed (h : formal.isWellFormed = true) :
    formal.name ≠ "" ∧ ∀ c ∈ formal.name.toList, endsName c = false :=
  isName_iff.1 (Bool.and_eq_true_iff.1 h).1

theorem noBound_chars_iff (h : formal.isWellFormed = true) :
    NoBound (formal.chars ++ s) ↔ formal.looksLikeBound = false := by
  obtain ⟨hne, hall⟩ := isName_of_isWellFormed h
  cases hn : formal.name.toList with
  | nil => exact absurd (String.toList_eq_nil_iff.1 hn) hne
  | cons d ds =>
      have hd : d ≠ '[' := by
        rintro rfl
        exact absurd (hall '[' (by rw [hn]; exact List.mem_cons_self)) (by decide)
      simp [looksLikeBound, chars, hn, hd]

/-- In a well-formed list a class bound is left out only where the text goes on with no bound. -/
theorem areWellFormed_cons_iff : areWellFormed (formal :: rest) = true ↔
    formal.isWellFormed = true ∧ areWellFormed rest = true ∧
      (formal.classBound = none →
        NoBound (formal.interfaceChars ++ (rest.flatMap chars ++ ['>']))) := by
  cases hi : formal.interfaceBounds with
  | cons b bounds =>
      -- the bound that is written begins with a `:`
      have hb : formal.isUnbounded = false := by simp [isUnbounded, hi]
      cases rest <;> simp [areWellFormed, mayFollow, interfaceChars, hi, hb]
  | nil =>
      have hb : formal.isUnbounded = formal.classBound.isNone := by simp [isUnbounded, hi]
      cases rest with
      | nil => simp [areWellFormed, interfaceChars, hi]
      | cons next rest =>
          have hnext : areWellFormed (next :: rest) = true → next.isWellFormed = true := by
            intro h
            cases rest with
            | nil => exact h
            | cons _ _ =>
                simp only [areWellFormed, Bool.and_eq_true] at h
                exact h.1.1
          simp only [areWellFormed, mayFollow, hb, Bool.and_eq_true, Bool.not_eq_true',
            Bool.and_eq_false_imp, Option.isNone_iff_eq_none, interfaceChars, hi,
            List.flatMap_nil, List.nil_append, List.flatMap_cons, List.append_assoc]
          constructor
          · rintro ⟨⟨hf, hm⟩, hr⟩
            exact ⟨hf, hr, fun hc => (noBound_chars_iff (hnext hr)).2 (hm hc)⟩
          · rintro ⟨hf, hr, hm⟩
            exact ⟨⟨hf, fun hc => (noBound_chars_iff (hnext hr)).1 (hm hc)⟩, hr⟩

theorem begins (hw : formal.isWellFormed = true) (h : Begins (step (.moreFormals :: k)) s es left)
    (hs : formal.classBound = none → NoBound (formal.interfaceChars ++ s)) :
    Begins (readFormal k) (formal.chars ++ s) (formal.events ++ es) left := by
  obtain ⟨name, classBound, interfaceBounds⟩ := formal
  simp only [isWellFormed, Bool.and_eq_true, List.all_eq_true, List.mem_append,
    Option.mem_toList] at hw
  obtain ⟨hn, hb⟩ := hw
  have hi := begins_interfaceBounds (fun b hm => hb b (Or.inr hm)) h
  cases classBound with
  | none =>
      have hc := hi.without_classBound (hs rfl)
      simpa [chars, events] using (begins_formalName hn).trans hc.reads
  | some b =>
      obtain ⟨hr, hbw⟩ := hb b (Or.inl rfl)
      have hc := (TypeTree.begins _ b hr hbw).classBound.trans hi.reads
      simpa [chars, events] using (begins_formalName hn).trans hc.reads

end FormalTree

theorem ne_close_of_readFormal {c : Char} (h : readFormal k (some c) = ⟨es, .ok left⟩) :
    some c ≠ some '>' := by
  intro hc
  obtain rfl := Option.some.inj hc
  exact absurd (readFormal_eq_ok_iff.1 h).1 (by decide)

theorem Begins.after_formal (h : Begins (readFormal k) s es left) :
    Begins (Signature.step (.moreFormals :: k)) s es left :=
  h.of_move [] fun c fs next hc => by
    rw [Signature.step, if_neg (ne_close_of_readFormal hc), hc, List.nil_append]

theorem Begins.firstFormal (h : Begins (readFormal k) s es left) :
    Begins (Signature.step (.firstFormal :: k)) s es left :=
  h.of_move [] fun c fs next hc => by
    rw [Signature.step, if_neg (ne_close_of_readFormal hc), hc, List.nil_append]

theorem Begins.without_formals (h : Begins (Signature.step k) s es left) (hs : s.head? ≠ some '<') :
    Begins (Signature.step (.formals :: k)) s es left := by
  obtain ⟨c, s', next, gs, fs, rfl, hm, hr, rfl⟩ := h
  have hc : some c ≠ some '<' := hs
  exact ⟨c, s', next, gs, fs, rfl, by rw [Signature.step, if_neg hc, hm], hr, rfl⟩

/-- A list of type parameters is read as its events. -/
theorem FormalTree.begins_list {formals : List FormalTree} (hne : formals ≠ [])
    (hw : FormalTree.areWellFormed formals = true) :
    Begins (readFormal k) (formals.flatMap FormalTree.chars ++ ['>'])
      (formals.flatMap FormalTree.events) k := by
  induction formals with
  | nil => exact absurd rfl hne
  | cons formal rest ih =>
      obtain ⟨hf, hr, hs⟩ := FormalTree.areWellFormed_cons_iff.1 hw
      rw [List.flatMap_cons, List.flatMap_cons, List.append_assoc]
      refine FormalTree.begins hf ?_ hs
      cases rest with
      | nil => exact begins_of_reads (c := '>') (e := []) rfl (.refl k)
      | cons next rest => exact (ih (List.cons_ne_nil _ _) hr).after_formal

theorem FormalTree.begins_listChars {formals : List FormalTree} (hne : formals ≠ [])
    (hw : FormalTree.areWellFormed formals = true) :
    Begins (step (.formals :: k)) (FormalTree.listChars formals)
      (formals.flatMap FormalTree.events) k := by
  cases formals with
  | nil => exact absurd rfl hne
  | cons formal rest =>
      have hlist := FormalTree.begins_list (k := k) hne hw
      exact begins_of_reads (c := '<') (e := []) rfl hlist.firstFormal.reads

/-- The list of type parameters of a signature is left out if it is empty. -/
theorem FormalTree.begins_formals {formals : List FormalTree}
    (hw : FormalTree.areWellFormed formals = true) (h : Begins (step k) s es left)
    (hs : s.head? ≠ some '<') :
    Begins (step (.formals :: k)) (FormalTree.listChars formals ++ s)
      (formals.flatMap FormalTree.events ++ es) left := by
  by_cases hn : formals = []
  · subst hn
    exact h.without_formals hs
  · exact (FormalTree.begins_listChars hn hw).trans h.reads

/-! ### Class signatures -/

theorem Begins.interface (h : Begins (readClass [.interfaces]) s es left) :
    Begins (Signature.step [.interfaces]) s (.interface :: es) left :=
  h.of_move [.interface] fun c fs next hm => by
    rw [Signature.step, if_neg (Option.some_ne_none c), hm]
    rfl

theorem Begins.superclass (h : Begins (readClass k) s es left) :
    Begins (Signature.step (.superclass :: k)) s (.superclass :: es) left :=
  h.of_move [.superclass] fun c fs next hm => by
    rw [Signature.step, hm]
    rfl

theorem completes_interfaces {types : List TypeTree}
    (ht : ∀ t ∈ types, t.isClass = true ∧ t.isWellFormed = true) :
    Completes [.interfaces] (types.flatMap TypeTree.chars)
      (types.flatMap fun type => .interface :: type.events) := by
  induction types with
  | nil => exact .stop rfl
  | cons type types ih =>
      obtain ⟨hc, hw⟩ := ht type List.mem_cons_self
      have hb : Begins (step [.interfaces]) type.chars (.interface :: type.events) [.interfaces] :=
        (TypeTree.begins_class hc hw).interface
      rw [List.flatMap_cons, List.flatMap_cons]
      exact completes_append_iff.2
        ⟨_, _, _, hb.reads, ih fun t hm => ht t (List.mem_cons_of_mem _ hm), rfl⟩

theorem ClassTree.completes {tree : ClassTree} (hw : tree.isWellFormed = true) :
    Completes Kind.classKind.goals tree.chars tree.events := by
  obtain ⟨formals, superclass, interfaces⟩ := tree
  rw [ClassTree.isWellFormed, Bool.and_eq_true, List.all_cons, Bool.and_eq_true,
    Bool.and_eq_true] at hw
  obtain ⟨hf, ⟨hc, hs⟩, hi⟩ := hw
  have hopen : superclass.chars.head? ≠ some '<' := by
    rw [TypeTree.head?_of_isClass hc]
    decide
  have hall : Begins (step Kind.classKind.goals) (FormalTree.listChars formals ++ superclass.chars)
      (formals.flatMap FormalTree.events ++ .superclass :: superclass.events) [.interfaces] :=
    FormalTree.begins_formals hf (TypeTree.begins_class hc hs).superclass hopen
  have hrest : Completes [.interfaces] (interfaces.flatMap TypeTree.chars) _ :=
    completes_interfaces fun t hm => by simpa using List.all_eq_true.1 hi t hm
  rw [ClassTree.chars, ClassTree.events, ← List.append_assoc]
  exact completes_append_iff.2 ⟨_, _, _, hall.reads, hrest, rfl⟩

/-! ### Method signatures -/

/-- Nothing that ends the parameters of a method or stands for no result begins a type. -/
theorem not_readJava_of_mark {c : Char} (hc : c = ')' ∨ c = 'V') :
    readJava k (some c) ≠ ⟨es, .ok left⟩ := by
  intro h
  rcases readJava_eq_ok_iff.1 h with ⟨b, hb, -⟩ | hr
  · obtain rfl := Option.some.inj hb
    cases b <;> exact absurd hc (by decide)
  · rw [readReference_eq_ok_iff] at hr
    rcases hc with rfl | rfl <;> simp at hr

theorem Begins.parameterType (h : Begins (readJava (.moreParameters :: k)) s es left) :
    Begins (Signature.step (.moreParameters :: k)) s (.parameterType :: es) left :=
  h.of_move [.parameterType] fun c fs next hm => by
    have hc : some c ≠ some ')' := by
      intro hc
      exact not_readJava_of_mark (Or.inl (Option.some.inj hc)) hm
    rw [Signature.step, if_neg hc, hm]
    rfl

theorem Begins.returnType (h : Begins (readJava k) s es left) :
    Begins (Signature.step (.returnType :: k)) s (.returnType :: es) left :=
  h.of_move [.returnType] fun c fs next hm => by
    have hc : some c ≠ some 'V' := by
      intro hc
      exact not_readJava_of_mark (Or.inr (Option.some.inj hc)) hm
    rw [Signature.step, if_neg hc, hm]
    rfl

theorem Begins.exceptionType (h : Begins (readJava (.exceptions :: k)) s es left)
    (hc : s.head? = some 'L' ∨ s.head? = some 'T') :
    Begins (Signature.step (.exceptions :: k)) ('^' :: s) (.exceptionType :: es) left := by
  obtain ⟨c, s', next, gs, fs, rfl, hm, hr, rfl⟩ := h.of_throwable hc
  have hc' : some c = some 'L' ∨ some c = some 'T' := hc
  have htype :
      Signature.step (.exceptionType :: k) (some c) = ⟨.exceptionType :: gs, .ok next⟩ := by
    rw [Signature.step, if_pos hc', hm]
    rfl
  exact begins_of_reads (e := []) rfl (.step htype hr)

theorem reads_parameters {types : List TypeTree} (ht : ∀ t ∈ types, t.isWellFormed = true) :
    Reads (.moreParameters :: k) (types.flatMap TypeTree.chars ++ [')'])
      (types.flatMap fun type => .parameterType :: type.events) k := by
  induction types with
  | nil => exact .single rfl
  | cons type types ih =>
      have hw := ht type List.mem_cons_self
      have hb : Begins (step (.moreParameters :: k)) type.chars (.parameterType :: type.events)
          (.moreParameters :: k) := (TypeTree.begins_any hw).parameterType
      have hi := ih fun t hm => ht t (List.mem_cons_of_mem _ hm)
      rw [List.flatMap_cons, List.flatMap_cons, List.append_assoc]
      exact hb.reads.trans hi

theorem begins_result {result : Option TypeTree} (ht : ∀ t ∈ result, t.isWellFormed = true) :
    Begins (step (.returnType :: k)) (result.elim ['V'] TypeTree.chars)
      (.returnType :: result.elim [.voidType] TypeTree.events) k := by
  cases result with
  | none => exact begins_of_reads (c := 'V') (e := [.returnType, .voidType]) rfl (.refl k)
  | some type => exact (TypeTree.begins_any (ht type rfl)).returnType

theorem completes_exceptions {types : List TypeTree}
    (ht : ∀ t ∈ types, t.isThrowable = true ∧ t.isWellFormed = true) :
    Completes [.exceptions] (types.flatMap fun type => '^' :: type.chars)
      (types.flatMap fun type => .exceptionType :: type.events) := by
  induction types with
  | nil => exact .stop rfl
  | cons type types ih =>
      obtain ⟨hth, hw⟩ := ht type List.mem_cons_self
      have hb : Begins (step [.exceptions]) ('^' :: type.chars) (.exceptionType :: type.events)
          [.exceptions] :=
        (TypeTree.begins_any hw).exceptionType (TypeTree.head?_of_isThrowable hth)
      rw [List.flatMap_cons, List.flatMap_cons]
      exact completes_append_iff.2
        ⟨_, _, _, hb.reads, ih fun t hm => ht t (List.mem_cons_of_mem _ hm), rfl⟩

theorem MethodTree.completes {tree : MethodTree} (hw : tree.isWellFormed = true) :
    Completes Kind.methodKind.goals tree.chars tree.events := by
  obtain ⟨formals, parameters, result, exceptions⟩ := tree
  simp only [MethodTree.isWellFormed, Bool.and_eq_true, List.all_append, List.all_eq_true,
    Option.mem_toList] at hw
  obtain ⟨⟨hf, hp, hr⟩, he⟩ := hw
  have hparameters : Begins (step [.parameters, .returnType, .exceptions])
      ('(' :: (parameters.flatMap TypeTree.chars ++ [')']))
      (parameters.flatMap fun type => .parameterType :: type.events)
      [.returnType, .exceptions] :=
    begins_of_reads (e := []) rfl (reads_parameters hp)
  have hresult : Begins (step [.returnType, .exceptions]) (result.elim ['V'] TypeTree.chars)
      (.returnType :: result.elim [.voidType] TypeTree.events) [.exceptions] :=
    begins_result hr
  have hall : Begins (step Kind.methodKind.goals) _ _ _ :=
    FormalTree.begins_formals hf (hparameters.trans hresult.reads) (by simp)
  have hrest := completes_exceptions he
  have hc : (MethodTree.mk formals parameters result exceptions).chars =
      FormalTree.listChars formals ++ ('(' :: (parameters.flatMap TypeTree.chars ++ [')']) ++
        result.elim ['V'] TypeTree.chars) ++
          exceptions.flatMap fun type => '^' :: type.chars := by
    simp [MethodTree.chars]
  rw [hc]
  refine completes_append_iff.2 ⟨_, _, _, hall.reads, hrest, ?_⟩
  simp [MethodTree.events]

/-! ### Signatures of any kind -/

/-- **The text of a well-formed tree is read as its events.** -/
theorem Tree.completes {tree : Tree} (hw : tree.isWellFormed = true) :
    Completes tree.kind.goals tree.chars tree.events := by
  cases tree with
  | ofClass tree => exact ClassTree.completes hw
  | ofMethod tree => exact MethodTree.completes hw
  | ofField type =>
      rw [Tree.isWellFormed, Bool.and_eq_true] at hw
      have hb : Begins (step [.referenceType]) type.chars type.events [] :=
        TypeTree.begins [] type hw.1 hw.2
      have hend : Completes [] [] [] := .stop rfl
      have hc := completes_append_iff.2 ⟨_, _, _, hb.reads, hend, rfl⟩
      rw [List.append_nil, List.append_nil] at hc
      exact hc

theorem Tree.walk_of_chars {tree : Tree} {text : String} (hw : tree.isWellFormed = true)
    (hs : tree.chars = text.toList) : walk tree.kind text = ⟨tree.events, none⟩ :=
  walk_eq_iff.2 (hs ▸ Tree.completes hw)

theorem Tree.walk_eq {tree : Tree} (hw : tree.isWellFormed = true) :
    walk tree.kind (String.ofList tree.chars) = ⟨tree.events, none⟩ :=
  Tree.walk_of_chars hw String.toList_ofList.symm

end RecordRepair.Signature
