import RecordRepair.Text.Utf8

/-! # What a cut leaves

A cut tries the longest beginning within the limit first, then beginnings that are one, two and three
bytes shorter, and takes the first that is text.

* `StartsWith bytes text`: some bytes begin with those of a text.
* `fromUTF8?_extract_eq_some_iff`: a beginning that is text is found by its size.
* `StartsWith.exists_eq_append`: where the bytes are a text as a whole, what is left behind a text at
  their front is text again, so that bytes are never parted within a character.
* `IsLongestStart bytes limit text`: no longer text within the limit comes first among the bytes.
* `IsLongestStart.le_add_trimLimit`: of a text as a whole, less than a character is lost at the
  limit, and so no more than a cut may give up.
* `cutText?_longest`: a cut leaves the longest text at the front unless more would be lost, and of a
  text as a whole it always leaves that. -/

namespace RecordRepair.Text

variable {α : Type} {bytes : ByteArray} {limit n t : Nat} {text other whole rest : String}
  {c : Char}

/-! ### Texts at the front of bytes -/

/-- Some bytes begin with those of a text. -/
def StartsWith (bytes : ByteArray) (text : String) : Prop :=
  ∃ rest, bytes = text.toByteArray ++ rest

namespace StartsWith

theorem empty (bytes : ByteArray) : StartsWith bytes "" := ⟨bytes, by simp⟩

theorem append (text rest : String) : StartsWith (text ++ rest).toByteArray text :=
  ⟨rest.toByteArray, String.toByteArray_append⟩

theorem size_le (h : StartsWith bytes text) : text.utf8ByteSize ≤ bytes.size := by
  obtain ⟨rest, rfl⟩ := h
  rw [ByteArray.size_append, String.size_toByteArray]
  exact Nat.le_add_right _ _

theorem extract (h : StartsWith bytes text) :
    bytes.extract 0 text.utf8ByteSize = text.toByteArray := by
  obtain ⟨rest, rfl⟩ := h
  exact ByteArray.extract_append_eq_left String.size_toByteArray.symm

theorem eq_of_size (h : StartsWith bytes text) (h' : StartsWith bytes other)
    (hs : text.utf8ByteSize = other.utf8ByteSize) : text = other := by
  rw [← String.toByteArray_inj, ← h.extract, ← h'.extract, hs]

/-- A text whose bytes begin with those of another begins with its characters. -/
theorem exists_eq_append (h : StartsWith whole.toByteArray text) :
    ∃ rest, whole = text ++ rest := by
  have hsize : text.utf8ByteSize ≤ whole.utf8ByteSize := by
    simpa only [String.size_toByteArray] using h.size_le
  -- a position is between two characters if the bytes before it are text
  have hcut : String.Pos.Raw.IsValid whole ⟨text.utf8ByteSize⟩ := by
    refine String.Pos.Raw.isValid_iff_isValidUTF8_extract_zero.2 ⟨hsize, ?_⟩
    rw [h.extract]
    exact text.isValidUTF8
  refine ⟨.ofByteArray _ hcut.isValidUTF8_extract_utf8ByteSize, ?_⟩
  rw [← String.toByteArray_inj, String.toByteArray_append, ← h.extract,
    ← ByteArray.extract_eq_extract_append_extract _ (Nat.zero_le _) hsize,
    ← String.size_toByteArray, ByteArray.extract_zero_size]

end StartsWith

theorem fromUTF8?_extract_eq_some_iff (hn : n ≤ bytes.size) :
    String.fromUTF8? (bytes.extract 0 n) = some text ↔
      StartsWith bytes text ∧ text.utf8ByteSize = n := by
  constructor
  · intro h
    rw [String.fromUTF8?, Option.dite_none_right_eq_some] at h
    obtain ⟨hv, h⟩ := h
    obtain rfl := Option.some.inj h
    refine ⟨⟨bytes.extract n bytes.size, ?_⟩, ?_⟩
    · rw [String.fromUTF8,
        ← ByteArray.extract_eq_extract_append_extract n (Nat.zero_le n) hn,
        ByteArray.extract_zero_size]
    · rw [← String.size_toByteArray, String.fromUTF8, ByteArray.size_extract]
      omega
  · rintro ⟨h, rfl⟩
    rw [h.extract, String.fromUTF8?, dif_pos text.isValidUTF8]
    rfl

/-! ### The longest text within a limit -/

/-- A text is at the front of some bytes and within a limit, and no longer one is. -/
structure IsLongestStart (bytes : ByteArray) (limit : Nat) (text : String) : Prop where
  startsWith : StartsWith bytes text
  size_le : text.utf8ByteSize ≤ limit
  longest : ∀ other, StartsWith bytes other → other.utf8ByteSize ≤ limit →
    other.utf8ByteSize ≤ text.utf8ByteSize

theorem exists_isLongestStart (bytes : ByteArray) (limit : Nat) :
    ∃ text, IsLongestStart bytes limit text := by
  -- a greater limit lets in a text of just that size, or leaves the longest text as it is
  induction limit with
  | zero => exact ⟨"", .empty bytes, Nat.le_refl 0, fun _ _ hle => hle⟩
  | succ limit ih =>
      by_cases hfull : ∃ text, StartsWith bytes text ∧ text.utf8ByteSize = limit + 1
      · obtain ⟨text, htext, hsize⟩ := hfull
        exact ⟨text, htext, Nat.le_of_eq hsize, fun other _ hle => hsize ▸ hle⟩
      · obtain ⟨text, htext, hsize, hlongest⟩ := ih
        refine ⟨text, htext, by omega, fun other hother hle => hlongest other hother ?_⟩
        have hne : other.utf8ByteSize ≠ limit + 1 := fun h => hfull ⟨other, hother, h⟩
        omega

namespace IsLongestStart

theorem unique (h : IsLongestStart bytes limit text) (h' : IsLongestStart bytes limit other) :
    other = text :=
  h'.startsWith.eq_of_size h.startsWith <|
    Nat.le_antisymm (h.longest _ h'.startsWith h'.size_le) (h'.longest _ h.startsWith h.size_le)

theorem of_min (h : IsLongestStart bytes (min bytes.size limit) text) :
    IsLongestStart bytes limit text :=
  ⟨h.startsWith, Nat.le_trans h.size_le (Nat.min_le_right _ _), fun other ho hle =>
    h.longest other ho (Nat.le_min.2 ⟨ho.size_le, hle⟩)⟩

theorem fromUTF8?_eq_none (h : IsLongestStart bytes limit text) (hbytes : n ≤ bytes.size)
    (hlimit : n ≤ limit) (hlt : text.utf8ByteSize < n) :
    String.fromUTF8? (bytes.extract 0 n) = none := by
  refine Option.eq_none_iff_forall_ne_some.2 fun other hother => ?_
  obtain ⟨hstarts, rfl⟩ := (fromUTF8?_extract_eq_some_iff hbytes).1 hother
  exact absurd (h.longest other hstarts hlimit) (Nat.not_le.2 hlt)

/-- Where a text goes on, its next character does not fit. -/
theorem lt_add_next (h : IsLongestStart (text ++ rest).toByteArray limit text)
    (hc : rest.toList.head? = some c) : limit < text.utf8ByteSize + c.utf8Size := by
  obtain ⟨cs, hcs⟩ := List.head?_eq_some_iff.1 hc
  have hrest : rest = String.singleton c ++ String.ofList cs := by
    rw [← String.toList_inj, hcs]
    simp
  have hsize : (text ++ String.singleton c).utf8ByteSize = text.utf8ByteSize + c.utf8Size := by
    rw [String.utf8ByteSize_append, String.utf8ByteSize_singleton]
  have hstarts : StartsWith (text ++ rest).toByteArray (text ++ String.singleton c) := by
    rw [hrest, ← String.append_assoc]
    exact .append _ _
  refine Nat.lt_of_not_le fun hle => ?_
  have hlonger := h.longest _ hstarts (by omega)
  have hpos := c.utf8Size_pos
  omega

theorem le_add_trimLimit (h : IsLongestStart whole.toByteArray limit text) :
    min whole.utf8ByteSize limit ≤ text.utf8ByteSize + trimLimit := by
  obtain ⟨rest, rfl⟩ := h.startsWith.exists_eq_append
  cases hc : rest.toList.head? with
  | none =>
      have hrest : rest = "" := String.toList_eq_nil_iff.1 (List.head?_eq_none_iff.1 hc)
      rw [hrest, String.append_empty]
      omega
  | some c =>
      have hlt := h.lt_add_next hc
      have hfour : c.utf8Size ≤ trimLimit + 1 := c.utf8Size_le_four
      omega

end IsLongestStart

/-! ### The cut -/

theorem findSome?_range_eq_some {f : Nat → Option α} {a : α} (ht : t < n) (hf : f t = some a)
    (hbefore : ∀ i < t, f i = none) : (List.range n).findSome? f = some a := by
  obtain ⟨k, rfl⟩ := Nat.exists_eq_add_of_lt ht
  have hfirst : (List.range t).findSome? f = none := by
    simpa [List.findSome?_eq_none_iff] using hbefore
  rw [Nat.add_assoc, List.range_add, List.findSome?_append, hfirst, List.range_succ_eq_map]
  simp [hf]

theorem filter_range_le (k cap : Nat) :
    (List.range (k + 1)).filter (fun trim => trim ≤ cap) = List.range (min k cap + 1) := by
  induction k with
  | zero => simp
  | succ k ih =>
      rw [List.range_succ, List.filter_append, ih]
      by_cases hk : k + 1 ≤ cap
      · have hmin : min (k + 1) cap = min k cap + 1 := by omega
        have hlast : min k cap + 1 = k + 1 := by omega
        rw [hmin, List.range_succ (n := min k cap + 1), hlast]
        simp [hk]
      · have hmin : min (k + 1) cap = min k cap := by omega
        rw [hmin]
        simp [hk]

/-- A cut leaves the longest text at the front, if no more than three bytes are lost by that. -/
theorem cutText?_of_isLongestStart
    (h : IsLongestStart bytes (min bytes.size sizeLimit) text) :
    cutText? bytes =
      if min bytes.size sizeLimit - trimLimit ≤ text.utf8ByteSize then some text else none := by
  have hcap : min bytes.size sizeLimit ≤ bytes.size := Nat.min_le_left _ _
  have hsize := h.size_le
  rw [cutText?]
  generalize min bytes.size sizeLimit = cap at *
  rw [filter_range_le]
  split
  · refine findSome?_range_eq_some (t := cap - text.utf8ByteSize) (by omega) ?_ fun i hi => ?_
    · exact (fromUTF8?_extract_eq_some_iff (by omega)).2 ⟨h.startsWith, by omega⟩
    · exact h.fromUTF8?_eq_none (by omega) (by omega) (by omega)
  · refine List.findSome?_eq_none_iff.2 fun i hi => ?_
    rw [List.mem_range] at hi
    exact h.fromUTF8?_eq_none (by omega) (by omega) (by omega)

/-- **A cut leaves the longest text there is.**  Some text is the longest at the front of the bytes
that is within 16384 bytes.  A cut leaves this text if it is no more than three bytes short of what
the limit allows, and nothing otherwise.  Of a text as a whole it always leaves that beginning, the
next character of which would not fit. -/
theorem cutText?_longest (bytes : ByteArray) :
    ∃ text, (∀ other, IsLongestStart bytes (min bytes.size 16384) other ↔ other = text) ∧
      cutText? bytes =
        (if min bytes.size 16384 - 3 ≤ text.utf8ByteSize then some text else none) ∧
      ∀ whole : String, bytes = whole.toByteArray →
        cutText? bytes = some text ∧ IsLongestStart bytes 16384 text ∧
          ∃ rest, whole = text ++ rest ∧
            ∀ c, rest.toList.head? = some c → 16384 < text.utf8ByteSize + c.utf8Size := by
  obtain ⟨text, htext⟩ := exists_isLongestStart bytes (min bytes.size sizeLimit)
  have hcut := cutText?_of_isLongestStart htext
  refine ⟨text, fun other => ⟨htext.unique, fun h => h ▸ htext⟩, hcut, ?_⟩
  rintro whole rfl
  have hlongest := htext.of_min
  have hkept := hlongest.le_add_trimLimit
  rw [← String.size_toByteArray] at hkept
  obtain ⟨rest, rfl⟩ := hlongest.startsWith.exists_eq_append
  refine ⟨?_, hlongest, rest, rfl, fun c hc => hlongest.lt_add_next hc⟩
  rw [hcut, if_pos (Nat.sub_le_of_le_add hkept)]

theorem cutText?_longest_accent : cutText? "p/É".toByteArray = some "p/É" ∧
    IsLongestStart "p/É".toByteArray 16384 "p/É" := by
  have hcut : cutText? "p/É".toByteArray = some "p/É" := by decide
  obtain ⟨text, -, -, hwhole⟩ := cutText?_longest "p/É".toByteArray
  obtain ⟨htext, hlongest, -⟩ := hwhole "p/É" rfl
  obtain rfl := Option.some.inj (htext.symm.trans hcut)
  exact ⟨hcut, hlongest⟩

-- one byte of a character is given up, and four bytes within characters are no text
example : cutText? ⟨#[0x54, 0xc3]⟩ = some "T" := by decide

example : cutText? ⟨#[0x80, 0x80, 0x80, 0x80]⟩ = none := by decide

end RecordRepair.Text
