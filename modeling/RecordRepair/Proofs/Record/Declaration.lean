import RecordRepair.Proofs.Record.Bindings
import RecordRepair.Proofs.Signature.SplicedText
import RecordRepair.Record.Declaration

/-! # What a declaration declares

`declare` splices the names of bounds and interfaces into the text of a class signature as they are,
and then asks only whether the text is some class signature.

* `failingWith`: a computation that is known to fail or not.  Sequences of such computations fail
  for the first of their causes (`failingWith_bind`).
* `formalEvents_eq_failingWith`: the events of the type parameters are those of a list of
  `RawFormal`, if the registry knows the kind of every bound.
* `declare_eq`: what `declare` gives is the text of a tree of spliced names, if it is accepted.
* `declare_faithful_iff`: the text is read back as the events that it was printed from exactly if
  every name that was spliced in is a class name as the grammar has them.
* `declaredParameters_of_declare`: whatever the names are, an accepted text declares the type
  variables of the bindings. -/

namespace RecordRepair

open Signature

variable {lookup : Lookup} {c : ClassFile} {className : String} {bindings : Bindings}
  {text : String}

/-! ### Computations that are known to fail -/

/-- The computation that fails for a cause, if there is one, and else gives a result. -/
def failingWith {ε α : Type} (cause : Option ε) (a : α) : Except ε α :=
  match cause with
  | some error => .error error
  | none => .ok a

section

variable {ε α β : Type} {cause : Option ε} {error : ε} {a : α}

theorem failingWith_eq_ok_iff {b : α} : failingWith cause a = .ok b ↔ cause = none ∧ a = b := by
  cases cause <;> simp [failingWith]

theorem failingWith_eq_error_iff : failingWith cause a = .error error ↔ cause = some error := by
  cases cause <;> simp [failingWith]

/-- A sequence fails for the cause of its first part, or else for that of its second. -/
theorem failingWith_bind {f : α → Except ε β} {next : Option ε} {b : β}
    (h : cause = none → f a = failingWith next b) :
    failingWith cause a >>= f = failingWith (cause.or next) b := by
  cases cause with
  | some error => rfl
  | none => exact h rfl

theorem failingWith_bind_ok {f : α → Except ε β} {b : β} (h : f a = .ok b) :
    failingWith cause a >>= f = failingWith cause b := by
  cases cause with
  | some error => rfl
  | none => exact h

theorem failingWith_map (f : α → β) : (failingWith cause a).map f = failingWith cause (f a) := by
  cases cause <;> rfl

theorem findSome?_cons_eq_or {f : α → Option β} {list : List α} :
    (a :: list).findSome? f = (f a).or (list.findSome? f) := by
  rw [List.findSome?_cons]
  cases f a <;> rfl

end

/-! ### The events of the type parameters -/

/-- The class that a type variable is bounded by. -/
def Bound.erasure : Bound → String
  | unresolved => objectClass
  | erased name => name

/-- Why the kind of a bound cannot be found out. -/
def boundFailure? (lookup : Lookup) (className : String) : String × Bound → Option Failure
  | (_, .unresolved) => none
  | (name, .erased bound) =>
    match lookup bound with
    | .error cause => some (.registryUnavailable className name bound cause)
    | .ok none => some (.unresolvableBound className name bound)
    | .ok (some _) => none

/-- Whether a bound is known to be an interface. -/
def Bound.isInterface (lookup : Lookup) : Bound → Bool
  | unresolved => false
  | erased bound =>
    match lookup bound with
    | .ok (some info) => info.isInterface
    | _ => false

/-- The type parameter that stands for a type variable in a new signature. -/
def RawFormal.ofEntry (lookup : Lookup) (entry : String × Bound) : RawFormal where
  name := entry.1
  bound := entry.2.erasure
  isInterface := entry.2.isInterface lookup

theorem boundEvents_eq_failingWith (lookup : Lookup) (className name : String) (bound : Bound) :
    ∃ es, boundEvents lookup className name bound =
        failingWith (boundFailure? lookup className (name, bound)) es ∧
      (boundFailure? lookup className (name, bound) = none →
        .formalParameter name :: es = (RawFormal.ofEntry lookup (name, bound)).tree.events) := by
  cases bound with
  | unresolved => exact ⟨_, rfl, fun _ => by rw [RawFormal.tree_events]; rfl⟩
  | erased bound =>
      rw [boundEvents, boundFailure?]
      cases hl : lookup bound with
      | error cause => exact ⟨[], rfl, fun h => nomatch h⟩
      | ok info? =>
          cases info? with
          | none => exact ⟨[], rfl, fun h => nomatch h⟩
          | some info =>
              refine ⟨_, rfl, fun _ => ?_⟩
              rw [RawFormal.tree_events, RawFormal.ofEntry, Bound.isInterface, hl]
              rfl

theorem formalEvents_eq_failingWith (entries : List (String × Bound)) :
    formalEvents lookup className entries =
      failingWith (entries.findSome? (boundFailure? lookup className))
        ((entries.map (RawFormal.ofEntry lookup)).flatMap fun f => f.tree.events) := by
  induction entries with
  | nil => rfl
  | cons entry entries ih =>
      obtain ⟨name, bound⟩ := entry
      obtain ⟨es, hb, hes⟩ := boundEvents_eq_failingWith lookup className name bound
      rw [formalEvents, hb, findSome?_cons_eq_or, List.map_cons, List.flatMap_cons]
      refine failingWith_bind fun hn => ?_
      rw [← hes hn, ih]
      exact failingWith_bind_ok rfl

theorem formalEvents_eq_ok {entries : List (String × Bound)} {es : List Signature.Event}
    (h : formalEvents lookup className entries = .ok es) : ∃ formals : List RawFormal,
      es = (formals.flatMap fun f => f.tree.events) ∧
        (formals.map fun f => (f.name, f.bound)) = entries.map fun e => (e.1, e.2.erasure) := by
  rw [formalEvents_eq_failingWith, failingWith_eq_ok_iff] at h
  exact ⟨entries.map (RawFormal.ofEntry lookup), h.2.symm, by rw [List.map_map]; rfl⟩

/-! ### The text of a declaration -/

theorem isName_recordBase : isName endsClassName recordBase = true := by decide

theorem supertypeEvents_eq (interfaces : List String) : supertypeEvents interfaces =
    .superclass :: (TypeTree.raw recordBase).events ++
      interfaces.flatMap fun n => .interface :: (TypeTree.raw n).events := rfl

/-- What `declare` gives is the text of a tree of spliced names, if that is a class signature. -/
theorem declare_eq {es : List Signature.Event}
    (h : formalEvents lookup c.name bindings.entries = .ok es) : ∃ formals : List RawFormal,
      (formals.map fun f => (f.name, f.bound)) =
          bindings.entries.map (fun e => (e.1, e.2.erasure)) ∧
        es ++ supertypeEvents c.interfaces =
          (ClassTree.spliced formals recordBase c.interfaces).events ∧
        declare lookup c bindings =
          ((validate .classKind
            (String.ofList (ClassTree.spliced formals recordBase c.interfaces).chars)).mapError
              (.malformedSignature c.name .classSignature)).map fun _ =>
                String.ofList (ClassTree.spliced formals recordBase c.interfaces).chars := by
  obtain ⟨formals, rfl, hmap⟩ := formalEvents_eq_ok h
  have he : (formals.flatMap fun f => f.tree.events) ++ supertypeEvents c.interfaces =
      (ClassTree.spliced formals recordBase c.interfaces).events := by
    rw [ClassTree.spliced_events, supertypeEvents_eq]
  refine ⟨formals, hmap, he, ?_⟩
  simp only [declare, h, he, printAll_spliced, bind, Except.bind, Except.mapError]
  cases validate .classKind
    (String.ofList (ClassTree.spliced formals recordBase c.interfaces).chars) <;> rfl

theorem exists_formalEvents (h : declare lookup c bindings = .ok text) :
    ∃ es, formalEvents lookup c.name bindings.entries = .ok es := by
  rw [declare] at h
  obtain ⟨es, hf, -⟩ := exists_of_bind_eq_ok h
  exact ⟨es, hf⟩

theorem exists_of_declare (h : declare lookup c bindings = .ok text) :
    ∃ formals : List RawFormal,
      (formals.map fun f => (f.name, f.bound)) =
          bindings.entries.map (fun e => (e.1, e.2.erasure)) ∧
        text = String.ofList (ClassTree.spliced formals recordBase c.interfaces).chars ∧
        (walk .classKind text).error = none := by
  obtain ⟨es, hf⟩ := exists_formalEvents h
  obtain ⟨formals, hmap, -, hd⟩ := declare_eq hf
  rw [hd] at h
  cases hv : validate .classKind
      (String.ofList (ClassTree.spliced formals recordBase c.interfaces).chars) with
  | error error =>
      rw [hv] at h
      cases h
  | ok _ =>
      rw [hv] at h
      obtain rfl := Except.ok.inj h
      exact ⟨formals, hmap, rfl, validate_eq_ok_iff.1 hv⟩

/-! ### Faithful declarations -/

/-- The names of all bounds and interfaces are class names as the grammar has them. -/
def HasClassNames (bindings : Bindings) (interfaces : List String) : Prop :=
  (∀ entry ∈ bindings.entries, isName endsClassName entry.2.erasure = true) ∧
    ∀ name ∈ interfaces, isName endsClassName name = true

/-- Bindings into which members have been collected, whether their signatures are accepted or
not. -/
inductive Collected : Bindings → Prop
  | empty : Collected .empty
  | collect {bindings : Bindings} (member : Member) : Collected bindings →
      Collected (bindings.collect member).1

theorem Collected.hasProperNames (h : Collected bindings) : bindings.HasProperNames := by
  induction h with
  | empty => exact List.forall_mem_nil _
  | collect member _ ih => exact ih.collect member

theorem forall_mem_of_map_eq {formals : List RawFormal} {entries : List (String × Bound)}
    (h : (formals.map fun f => (f.name, f.bound)) = entries.map fun e => (e.1, e.2.erasure))
    (p : String → String → Prop) :
    (∀ f ∈ formals, p f.name f.bound) ↔ ∀ e ∈ entries, p e.1 e.2.erasure := by
  have hl : (∀ f ∈ formals, p f.name f.bound) ↔
      ∀ x ∈ formals.map fun f => (f.name, f.bound), p x.1 x.2 := by
    rw [List.forall_mem_map]
  rw [hl, h, List.forall_mem_map]

theorem declare_eq_ok_iff {es : List Signature.Event}
    (hf : formalEvents lookup c.name bindings.entries = .ok es) :
    declare lookup c bindings = .ok text ↔
      printAll (es ++ supertypeEvents c.interfaces) = .ok text ∧
        (walk .classKind text).error = none := by
  obtain ⟨formals, -, he, hd⟩ := declare_eq hf
  rw [hd, he, printAll_spliced, ← validate_eq_ok_iff]
  cases hv : validate .classKind
      (String.ofList (ClassTree.spliced formals recordBase c.interfaces).chars) with
  | error error =>
      constructor
      · intro h
        cases h
      · rintro ⟨ht, hw⟩
        obtain rfl := Except.ok.inj ht
        rw [hv] at hw
        cases hw
  | ok _ =>
      constructor
      · intro h
        obtain rfl := Except.ok.inj h
        exact ⟨rfl, hv⟩
      · rintro ⟨ht, -⟩
        obtain rfl := Except.ok.inj ht
        rfl

theorem walk_declaration_iff {es : List Signature.Event} (hb : bindings.HasProperNames)
    (hf : formalEvents lookup c.name bindings.entries = .ok es)
    (hp : printAll (es ++ supertypeEvents c.interfaces) = .ok text) :
    walk .classKind text = ⟨es ++ supertypeEvents c.interfaces, none⟩ ↔
      HasClassNames bindings c.interfaces := by
  obtain ⟨formals, hmap, he, -⟩ := declare_eq hf
  rw [he, printAll_spliced] at hp
  obtain rfl := Except.ok.inj hp
  have hnames : ∀ f ∈ formals, isName endsName f.name = true :=
    (forall_mem_of_map_eq hmap fun name _ => isName endsName name = true).2 hb
  have hbounds := forall_mem_of_map_eq hmap fun _ bound => isName endsClassName bound = true
  rw [he, walk_spliced_iff hnames isName_recordBase, hbounds, HasClassNames]

/-- **A declaration is read back as it was printed exactly if all its names are class names.**
Otherwise it fails, or else the text is a class signature that says something different. -/
theorem declare_faithful_iff (hb : Collected bindings) :
    (∀ text, declare lookup c bindings = .ok text → ∃ formals,
      formalEvents lookup c.name bindings.entries = .ok formals ∧
        (walk .classKind text = ⟨formals ++ supertypeEvents c.interfaces, none⟩ ↔
          HasClassNames bindings c.interfaces)) ∧
      ∀ formals, formalEvents lookup c.name bindings.entries = .ok formals →
        (HasClassNames bindings c.interfaces → ∃ text, declare lookup c bindings = .ok text ∧
          walk .classKind text = ⟨formals ++ supertypeEvents c.interfaces, none⟩) ∧
        (∀ text, declare lookup c bindings = .ok text ↔
          printAll (formals ++ supertypeEvents c.interfaces) = .ok text ∧
            (walk .classKind text).error = none) ∧
        ∀ failure, declare lookup c bindings = .error failure →
          ∃ cause, failure = .malformedSignature c.name .classSignature cause := by
  refine ⟨fun text h => ?_, fun es hf => ⟨fun hn => ?_, fun text => declare_eq_ok_iff hf, ?_⟩⟩
  · obtain ⟨es, hf⟩ := exists_formalEvents h
    exact ⟨es, hf, walk_declaration_iff hb.hasProperNames hf ((declare_eq_ok_iff hf).1 h).1⟩
  · obtain ⟨formals, -, he, -⟩ := declare_eq hf
    have hp : printAll (es ++ supertypeEvents c.interfaces) =
        .ok (String.ofList (ClassTree.spliced formals recordBase c.interfaces).chars) := by
      rw [he, printAll_spliced]
    have hw := (walk_declaration_iff hb.hasProperNames hf hp).2 hn
    exact ⟨_, (declare_eq_ok_iff hf).2 ⟨hp, congrArg Walk.error hw⟩, hw⟩
  · intro failure h
    obtain ⟨formals, -, -, hd⟩ := declare_eq hf
    rw [hd] at h
    cases hv : validate .classKind
        (String.ofList (ClassTree.spliced formals recordBase c.interfaces).chars) with
    | error cause =>
        rw [hv] at h
        exact ⟨cause, (Except.error.inj h).symm⟩
    | ok _ =>
        rw [hv] at h
        cases h

/-- A bound with a plain class name is read back. -/
theorem declare_faithful_number :
    ∃ text, declare (fun _ => .ok (some ⟨false⟩)) (.bare "p/R" (some recordBase))
        (Bindings.empty.collect ⟨"TT;", .fieldKind, .field (.object "java/lang/Number")⟩).1 =
          .ok text ∧
      walk .classKind text = ⟨[.formalParameter "T", .classBound, .classType "java/lang/Number",
        .close] ++ supertypeEvents [], none⟩ := by
  have hf : formalEvents (fun _ => .ok (some ⟨false⟩)) "p/R"
      (Bindings.empty.collect
        ⟨"TT;", .fieldKind, .field (.object "java/lang/Number")⟩).1.entries =
      .ok [.formalParameter "T", .classBound, .classType "java/lang/Number", .close] := by decide
  have hn : HasClassNames (Bindings.empty.collect
      ⟨"TT;", .fieldKind, .field (.object "java/lang/Number")⟩).1 [] := ⟨by decide, by decide⟩
  exact ((declare_faithful_iff (c := .bare "p/R" (some recordBase)) (.collect _ .empty)).2 _
    hf).1 hn

/-- A bound of the name `a<*>` is read back as the class `a` with a type argument. -/
theorem declare_unfaithful_argument :
    ∃ text, declare (fun _ => .ok (some ⟨false⟩)) (.bare "p/R" (some recordBase))
        (Bindings.empty.collect ⟨"TT;", .fieldKind, .field (.object "a<*>")⟩).1 = .ok text ∧
      ∀ formals, formalEvents (fun _ => .ok (some ⟨false⟩)) "p/R"
          (Bindings.empty.collect ⟨"TT;", .fieldKind, .field (.object "a<*>")⟩).1.entries =
            .ok formals →
        walk .classKind text ≠ ⟨formals ++ supertypeEvents [], none⟩ := by
  refine ⟨"<T:La<*>;>Ljava/lang/Record;", by decide, fun formals hf => ?_⟩
  have he : formals = [.formalParameter "T", .classBound, .classType "a<*>", .close] :=
    Except.ok.inj (hf.symm.trans (by decide))
  rw [he]
  decide

/-! ### What an accepted declaration declares -/

theorem isPlain_of_bindings {formals : List RawFormal} (hn : bindings.HasProperNames)
    (hp : bindings.HasPlainBounds)
    (h : (formals.map fun f => (f.name, f.bound)) =
      bindings.entries.map fun e => (e.1, e.2.erasure)) : ∀ f ∈ formals, f.IsPlain := by
  refine (forall_mem_of_map_eq h fun name bound =>
    isName endsName name = true ∧ ';' ∉ bound.toList).2 fun entry hm => ⟨hn entry hm, ?_⟩
  cases hb : entry.2 with
  | unresolved => decide
  | erased bound => exact hp entry hm bound hb

/-- **An accepted declaration declares the type variables of the bindings,** whatever its bounds and
interfaces are read as. -/
theorem declaredParameters_of_declare (hn : bindings.HasProperNames) (hp : bindings.HasPlainBounds)
    (h : declare lookup c bindings = .ok text) :
    declaredParameters .classKind text = .ok bindings.names := by
  obtain ⟨formals, hmap, rfl, hw⟩ := exists_of_declare h
  have hplain := isPlain_of_bindings hn hp hmap
  rw [declaredParameters_spliced hplain isName_recordBase String.toList_ofList hw]
  have hnames := congrArg (List.map Prod.fst) hmap
  rw [List.map_map, List.map_map] at hnames
  exact congrArg Except.ok hnames

/-- **An accepted declaration refers to no type variable** if no interface has a `;` in its name. -/
theorem reference?_of_declare (hn : bindings.HasProperNames) (hp : bindings.HasPlainBounds)
    (hi : ∀ name ∈ c.interfaces, ';' ∉ name.toList) (h : declare lookup c bindings = .ok text) :
    ∀ e ∈ (walk .classKind text).events, e.reference? = none := by
  obtain ⟨formals, hmap, rfl, hw⟩ := exists_of_declare h
  exact reference?_of_spliced (isPlain_of_bindings hn hp hmap) isName_recordBase hi
    String.toList_ofList hw

end RecordRepair
