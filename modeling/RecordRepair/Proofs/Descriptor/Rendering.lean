import RecordRepair.Descriptor.Printer
import RecordRepair.Descriptor.Reader

/-! # Reading descriptors back

Reading is the exact inverse of rendering, on the types whose class names are not empty and have no
`;`.

* `FieldType.read?_eq_some_iff`: what is read off the front of a text is the descriptor of the type,
  whatever stands behind it.
* `MethodDescriptor.readParameters?_eq_some_iff` and `MethodDescriptor.read?_eq_some_iff`: the same
  of parameter lists and of whole method descriptors.  No type begins like the `)` behind the
  parameters or like the `V` of no result.
* `ofDescriptor_inverse`: whole texts.  One that is no descriptor is refused and named in full. -/

namespace RecordRepair

namespace FieldType

variable {s rest : List Char} {type : FieldType} {name : String}

/-! ### One type -/

theorem render_object_append (name : String) (rest : List Char) :
    (object name).render ++ rest = 'L' :: (name.toList ++ ';' :: rest) := by
  simp [render]

/-- What is read off the front of a text is the descriptor of the type.  A class name ends at the
first `;`, so it has none. -/
theorem spec_of_read? (h : read? s = some (type, rest)) :
    s = type.render ++ rest ∧ type.HasProperName := by
  induction s generalizing type rest with
  | nil => cases h
  | cons c s ih =>
      rw [read?] at h
      split at h
      · -- an array
        next hc =>
          obtain ⟨⟨component, rest'⟩, hr, he⟩ := Option.map_eq_some_iff.1 h
          cases he
          obtain ⟨hs, hp⟩ := ih hr
          rw [render, hc, hs, List.cons_append]
          exact ⟨rfl, hp⟩
      split at h
      · -- a class
        next hc =>
          split at h
          · cases h
          · cases h
          · next d name e rest' hname hrest =>
              cases h
              -- the name and what is left of the text make up the text
              have hs : d :: name ++ e :: rest = s := by
                rw [← hname, ← hrest, List.takeWhile_append_dropWhile]
              have he : e = ';' := by
                have hhead := List.head?_dropWhile_not (· != ';') s
                rw [hrest] at hhead
                simpa using hhead
              have hall : ∀ c ∈ d :: name, (c != ';') = true := by
                rw [← hname]
                exact List.all_eq_true.1 List.all_takeWhile
              refine ⟨?_, fun hempty => ?_, fun hm => ?_⟩
              · rw [render_object_append, String.toList_ofList, hc, ← hs, he]
              · cases String.ofList_eq_empty_iff.1 hempty
              · rw [String.toList_ofList] at hm
                cases hall ';' hm
      · -- a primitive type
        next hl =>
          obtain ⟨b, hb, he⟩ := Option.map_eq_some_iff.1 h
          cases he
          rw [render, BaseType.letter_of_ofLetter? hb, List.singleton_append]
          exact ⟨rfl, trivial⟩

theorem read?_object_append (hp : (object name).HasProperName) (rest : List Char) :
    read? ((object name).render ++ rest) = some (object name, rest) := by
  obtain ⟨hne, hsemicolon⟩ := hp
  have hall : ∀ c ∈ name.toList, (c != ';') = true := by
    intro c hc
    rw [bne_iff_ne]
    rintro rfl
    exact hsemicolon hc
  have htake : (name.toList ++ ';' :: rest).takeWhile (· != ';') = name.toList := by
    rw [List.takeWhile_append_of_pos hall, List.takeWhile_cons_of_neg (by simp), List.append_nil]
  have hdrop : (name.toList ++ ';' :: rest).dropWhile (· != ';') = ';' :: rest := by
    rw [List.dropWhile_append_of_pos hall, List.dropWhile_cons_of_neg (by simp)]
  rw [render_object_append, read?, if_neg (by decide), if_pos rfl, htake, hdrop]
  cases hn : name.toList with
  | nil => exact absurd (String.toList_eq_nil_iff.1 hn) hne
  | cons d ds =>
      dsimp only
      rw [← hn, String.ofList_toList]

theorem read?_render_append (hp : type.HasProperName) (rest : List Char) :
    read? (type.render ++ rest) = some (type, rest) := by
  induction type with
  | base b => cases b <;> rfl
  | object name => exact read?_object_append hp rest
  | array component ih => rw [render, List.cons_append, read?, if_pos rfl, ih hp, Option.map_some]

theorem read?_eq_some_iff :
    read? s = some (type, rest) ↔ s = type.render ++ rest ∧ type.HasProperName := by
  refine ⟨spec_of_read?, ?_⟩
  rintro ⟨rfl, hp⟩
  exact read?_render_append hp rest

theorem hasProperName_of_element? {type element : FieldType} {n : Nat} (hp : type.HasProperName)
    (h : type.element? n = some element) : element.HasProperName := by
  induction type generalizing n with
  | base _ =>
      cases n with
      | zero => cases h; exact hp
      | succ n => cases h
  | object _ =>
      cases n with
      | zero => cases h; exact hp
      | succ n => cases h
  | array component ih =>
      cases n with
      | zero => cases h; exact hp
      | succ n => exact ih hp h

/-! ### Field descriptors -/

theorem ofDescriptor_eq_ok_iff {text : String} :
    ofDescriptor text = .ok type ↔ type.render = text.toList ∧ type.HasProperName := by
  have hread : ofDescriptor text = .ok type ↔ read? text.toList = some (type, []) := by
    unfold ofDescriptor
    split
    · next t hr => simp [hr]
    · next hne =>
        constructor
        · intro h
          cases h
        · exact fun hr => absurd hr (hne type)
  rw [hread, read?_eq_some_iff, List.append_nil, eq_comm]

theorem hasProperName_of_ofDescriptor {text : String} (h : ofDescriptor text = .ok type) :
    type.HasProperName := (ofDescriptor_eq_ok_iff.1 h).2

theorem ofDescriptor_eq_error_iff {text : String} :
    ofDescriptor text = .error (.invalidDescriptor text) ↔
      ¬∃ type : FieldType, type.render = text.toList ∧ type.HasProperName := by
  simp only [← ofDescriptor_eq_ok_iff]
  unfold ofDescriptor
  split <;> simp

end FieldType

namespace MethodDescriptor

variable {s rest : List Char} {types : List FieldType} {type : FieldType} {result : ReturnType}
  {method : MethodDescriptor}

/-! ### Parameters and results -/

theorem readParameters?_of_read? (h : FieldType.read? s = some (type, rest)) :
    readParameters? s = (readParameters? rest).map fun p => (type :: p.1, p.2) := by
  rw [readParameters?.eq_def]
  split
  · next hs => cases h
  · split
    · next hr => simp [h] at hr
    · next t r hr =>
        obtain ⟨rfl, rfl⟩ := Prod.mk.inj (Option.some.inj (h.symm.trans hr))
        rfl

/-- **Reading parameters is the inverse of rendering them.**  It goes on up to the first `)` that
stands where a type could begin. -/
theorem readParameters?_eq_some_iff : readParameters? s = some (types, rest) ↔
    s = types.flatMap FieldType.render ++ ')' :: rest ∧
      ∀ type ∈ types, type.HasProperName := by
  constructor
  · intro h
    fun_induction readParameters? s generalizing types rest with
    | case1 rest' =>
        cases h
        exact ⟨rfl, List.forall_mem_nil _⟩
    | case2 s hne hr => cases h
    | case3 s hne type rest' hr ih =>
        obtain ⟨⟨types', rest''⟩, hp, he⟩ := Option.map_eq_some_iff.1 h
        cases he
        obtain ⟨rfl, hfirst⟩ := FieldType.spec_of_read? hr
        obtain ⟨rfl, hothers⟩ := ih hp
        rw [List.flatMap_cons, List.append_assoc]
        exact ⟨rfl, List.forall_mem_cons.2 ⟨hfirst, hothers⟩⟩
  · rintro ⟨rfl, hp⟩
    induction types with
    | nil => rw [List.flatMap_nil, List.nil_append, readParameters?]
    | cons type types ih =>
        obtain ⟨ht, hts⟩ := List.forall_mem_cons.1 hp
        rw [List.flatMap_cons, List.append_assoc,
          readParameters?_of_read? (FieldType.read?_render_append ht _), ih hts, Option.map_some]

theorem readResult?_eq_some_iff : readResult? s = some (result, rest) ↔
    s = result.render ++ rest ∧ result.HasProperName := by
  constructor
  · intro h
    unfold readResult? at h
    split at h
    · cases h
      exact ⟨rfl, trivial⟩
    · obtain ⟨⟨type, rest'⟩, hr, he⟩ := Option.map_eq_some_iff.1 h
      cases he
      exact FieldType.spec_of_read? hr
  · rintro ⟨rfl, hp⟩
    cases result with
    | void => rfl
    | type t =>
        have hr := FieldType.read?_render_append hp rest
        unfold readResult?
        split
        · next hs =>
            rw [ReturnType.render] at hs
            rw [hs] at hr
            cases hr
        · rw [ReturnType.render, hr, Option.map_some]

/-! ### Method descriptors -/

theorem read?_eq_some_iff :
    read? s = some method ↔ method.render = s ∧ method.HasProperNames := by
  obtain ⟨parameters, result⟩ := method
  constructor
  · intro h
    unfold read? at h
    split at h
    · split at h
      · cases h
      · next hp =>
          split at h
          · next hr =>
              cases h
              obtain ⟨rfl, hparameters⟩ := readParameters?_eq_some_iff.1 hp
              obtain ⟨rfl, hresult⟩ := readResult?_eq_some_iff.1 hr
              exact ⟨by simp [render], hparameters, hresult⟩
          · cases h
    · cases h
  · rintro ⟨rfl, hparameters, hresult⟩
    have hp : readParameters? (parameters.flatMap FieldType.render ++ ')' :: result.render) =
        some (parameters, result.render) := readParameters?_eq_some_iff.2 ⟨rfl, hparameters⟩
    have hr : readResult? result.render = some (result, []) :=
      readResult?_eq_some_iff.2 ⟨(List.append_nil _).symm, hresult⟩
    rw [render, List.cons_append, read?, hp]
    dsimp only
    rw [hr]

theorem ofDescriptor_eq_ok_iff {text : String} :
    ofDescriptor text = .ok method ↔ method.render = text.toList ∧ method.HasProperNames := by
  rw [← read?_eq_some_iff]
  unfold ofDescriptor
  cases read? text.toList <;> simp

theorem hasProperNames_of_ofDescriptor {text : String} (h : ofDescriptor text = .ok method) :
    method.HasProperNames := (ofDescriptor_eq_ok_iff.1 h).2

theorem ofDescriptor_eq_error_iff {text : String} :
    ofDescriptor text = .error (.invalidDescriptor text) ↔
      ¬∃ method : MethodDescriptor, method.render = text.toList ∧ method.HasProperNames := by
  simp only [← ofDescriptor_eq_ok_iff]
  unfold ofDescriptor
  split <;> simp

end MethodDescriptor

/-- **Reading descriptors is the exact inverse of rendering them.**  A text is read as a type, or
as a method, exactly when it is what that renders to and no class name in it is empty or has a `;`.
Every other text is refused, and the refusal names all of it.  Each type that is read takes some of
the text, which is why reading ends. -/
theorem ofDescriptor_inverse (text : String) :
    (∀ type, FieldType.ofDescriptor text = .ok type ↔
      type.render = text.toList ∧ type.HasProperName) ∧
    (FieldType.ofDescriptor text = .error (.invalidDescriptor text) ↔
      ¬∃ type : FieldType, type.render = text.toList ∧ type.HasProperName) ∧
    (∀ method, MethodDescriptor.ofDescriptor text = .ok method ↔
      method.render = text.toList ∧ method.HasProperNames) ∧
    (MethodDescriptor.ofDescriptor text = .error (.invalidDescriptor text) ↔
      ¬∃ method : MethodDescriptor, method.render = text.toList ∧ method.HasProperNames) ∧
    ∀ s type rest, FieldType.read? s = some (type, rest) →
      s = type.render ++ rest ∧ rest.length < s.length := by
  refine ⟨fun _ => FieldType.ofDescriptor_eq_ok_iff, FieldType.ofDescriptor_eq_error_iff,
    fun _ => MethodDescriptor.ofDescriptor_eq_ok_iff,
    MethodDescriptor.ofDescriptor_eq_error_iff, ?_⟩
  intro s type rest h
  exact ⟨(FieldType.spec_of_read? h).1, FieldType.read?_length_lt h⟩

/-- Brackets and letters of other types that stand in a class name stay part of it. -/
example : (MethodDescriptor.ofDescriptor "([LI)[V;J)V").toOption =
    some ⟨[.array (.object "I)[V"), .base .long], .void⟩ := by
  decide +kernel

end RecordRepair
