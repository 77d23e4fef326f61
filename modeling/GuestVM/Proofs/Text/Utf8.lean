import GuestVM.Text.Utf8

/-! # Text survives its bytes

The bytes of a text decode to the text, so texts with the same bytes are the same. -/
set_option autoImplicit false

namespace GuestVM.Text

variable {v n : Nat} {low high : UInt8} {rest : List UInt8}

/-! ## Continuation bytes -/

/-- The byte that carries the last six bits. -/
def trailing (v : Nat) : UInt8 := UInt8.ofNat (v % 64 + 128)

theorem toNat_trailing : (trailing v).toNat = v % 64 + 128 := by
  rw [trailing, UInt8.toNat_ofNat']
  omega

theorem bits_trailing : v / 64 * 64 + (trailing v).toNat % 64 = v := by
  rw [toNat_trailing]
  omega

structure Within (low high b : UInt8) : Prop where
  low : low.toNat ≤ b.toNat
  high : b.toNat ≤ high.toNat

theorem within_trailing : Within 0x80 0xBF (trailing v) := by
  constructor <;> rw [toNat_trailing]
  · exact Nat.le_add_left _ _
  · exact Nat.add_le_add_right (Nat.le_of_lt_succ (Nat.mod_lt v (by decide))) 128

theorem pieces_trailing_owed (within : Within low high (trailing v)) :
    pieces (some ⟨v / 64, n + 1, low, high⟩) (trailing v :: rest) =
      pieces (some ⟨v, n, 0x80, 0xBF⟩) rest := by
  rw [pieces, if_pos ⟨within.low, within.high⟩]
  simp only [bits_trailing]

theorem pieces_trailing_last (within : Within low high (trailing v)) :
    pieces (some ⟨v / 64, 0, low, high⟩) (trailing v :: rest) =
      some (Char.ofNat v) :: pieces none rest := by
  rw [pieces, if_pos ⟨within.low, within.high⟩]
  simp only [bits_trailing]

/-! ## First bytes -/

theorem ofByte_two (above : 0x7F < v) (below : v ≤ 0x7FF) :
    Lead.ofByte (UInt8.ofNat (v / 64 % 32 + 192)) = .begun ⟨v / 64, 0, 0x80, 0xBF⟩ := by
  have value : (UInt8.ofNat (v / 64 % 32 + 192)).toNat = v / 64 + 192 := by
    rw [UInt8.toNat_ofNat']
    omega
  have bits : (v / 64 + 192) % 32 = v / 64 := by omega
  have whole : ¬ v / 64 + 192 < 128 := by omega
  have stray : ¬ v / 64 + 192 < 194 := by omega
  have two : v / 64 + 192 < 224 := by omega
  simp only [Lead.ofByte, UInt8.lt_iff_toNat_lt, value, bits, UInt8.reduceToNat, whole, stray, two,
    if_true, if_false]

/-- The bounds of the second byte leave out what fewer bytes say, and the surrogates. -/
theorem ofByte_three (above : 0x7FF < v) (below : v ≤ 0xFFFF) (scalar : v < 0xD800 ∨ 0xDFFF < v) :
    ∃ low high, Within low high (trailing (v / 64)) ∧
      Lead.ofByte (UInt8.ofNat (v / 4096 % 16 + 224)) = .begun ⟨v / 4096, 1, low, high⟩ := by
  have value : (UInt8.ofNat (v / 4096 % 16 + 224)).toNat = v / 4096 + 224 := by
    rw [UInt8.toNat_ofNat']
    omega
  have second : (trailing (v / 64)).toNat = v / 64 % 64 + 128 := toNat_trailing
  have usual : Within 0x80 0xBF (trailing (v / 64)) := within_trailing
  have bits : (v / 4096 + 224) % 16 = v / 4096 := by omega
  have whole : ¬ v / 4096 + 224 < 128 := by omega
  have stray : ¬ v / 4096 + 224 < 194 := by omega
  have two : ¬ v / 4096 + 224 < 224 := by omega
  have three : v / 4096 + 224 < 240 := by omega
  simp only [Lead.ofByte, UInt8.lt_iff_toNat_lt, ← UInt8.toNat_inj, value, bits,
    UInt8.reduceToNat, whole, stray, two, three, if_true, if_false]
  by_cases shortest : v / 4096 + 224 = 224
  · refine ⟨0xA0, 0xBF, ⟨?_, usual.high⟩, ?_⟩
    · simp only [second, UInt8.reduceToNat]
      omega
    · rw [if_pos shortest]
      congr 2
      omega
  by_cases surrogate : v / 4096 + 224 = 237
  · refine ⟨0x80, 0x9F, ⟨usual.low, ?_⟩, ?_⟩
    · simp only [second, UInt8.reduceToNat]
      omega
    · rw [if_neg shortest, if_pos surrogate]
      congr 2
      omega
  · exact ⟨0x80, 0xBF, usual, by rw [if_neg shortest, if_neg surrogate]⟩

/-- The bounds of the second byte leave out what fewer bytes say, and what is too large. -/
theorem ofByte_four (above : 0xFFFF < v) (below : v < 0x110000) :
    ∃ low high, Within low high (trailing (v / 4096)) ∧
      Lead.ofByte (UInt8.ofNat (v / 262144 % 8 + 240)) = .begun ⟨v / 262144, 2, low, high⟩ := by
  have value : (UInt8.ofNat (v / 262144 % 8 + 240)).toNat = v / 262144 + 240 := by
    rw [UInt8.toNat_ofNat']
    omega
  have second : (trailing (v / 4096)).toNat = v / 4096 % 64 + 128 := toNat_trailing
  have usual : Within 0x80 0xBF (trailing (v / 4096)) := within_trailing
  have bits : (v / 262144 + 240) % 8 = v / 262144 := by omega
  have whole : ¬ v / 262144 + 240 < 128 := by omega
  have stray : ¬ v / 262144 + 240 < 194 := by omega
  have two : ¬ v / 262144 + 240 < 224 := by omega
  have three : ¬ v / 262144 + 240 < 240 := by omega
  have none : ¬ v / 262144 + 240 = 224 := by omega
  have surrogate : ¬ v / 262144 + 240 = 237 := by omega
  simp only [Lead.ofByte, UInt8.lt_iff_toNat_lt, ← UInt8.toNat_inj, value, bits,
    UInt8.reduceToNat, whole, stray, two, three, none, surrogate, if_false]
  by_cases shortest : v / 262144 + 240 = 240
  · refine ⟨0x90, 0xBF, ⟨?_, usual.high⟩, ?_⟩
    · simp only [second, UInt8.reduceToNat]
      omega
    · rw [if_pos shortest]
      congr 2
      omega
  by_cases last : v / 262144 + 240 < 244
  · exact ⟨0x80, 0xBF, usual, by rw [if_neg shortest, if_pos last]⟩
  · refine ⟨0x80, 0x8F, ⟨usual.low, ?_⟩, ?_⟩
    · simp only [second, UInt8.reduceToNat]
      omega
    · rw [if_neg shortest, if_neg last, if_pos (by omega)]
      congr 2
      omega

/-! ## Characters -/

theorem pieces_one (one : v ≤ 0x7F) :
    pieces none (UInt8.ofNat v :: rest) = some (Char.ofNat v) :: pieces none rest := by
  have value : (UInt8.ofNat v).toNat = v := by
    rw [UInt8.toNat_ofNat']
    omega
  have whole : v < 128 := by omega
  have led : Lead.ofByte (UInt8.ofNat v) = .whole (Char.ofNat v) := by
    simp only [Lead.ofByte, UInt8.lt_iff_toNat_lt, value, UInt8.reduceToNat, whole, if_true]
  rw [pieces, led]

theorem pieces_utf8EncodeChar (c : Char) :
    pieces none (String.utf8EncodeChar c ++ rest) = some c :: pieces none rest := by
  have valid : c.val.toNat < 0xD800 ∨ 0xDFFF < c.val.toNat ∧ c.val.toNat < 0x110000 := c.valid
  have same : Char.ofNat c.val.toNat = c := Char.ofNat_toNat c
  unfold String.utf8EncodeChar
  generalize c.val.toNat = v at valid same
  subst same
  have twice : v / 4096 = v / 64 / 64 := by omega
  have thrice : v / 262144 = v / 64 / 64 / 64 := by omega
  dsimp only
  split
  case isTrue one => exact pieces_one one
  case isFalse one =>
  split
  case isTrue two =>
    rw [List.cons_append, pieces, ofByte_two (by omega) two]
    exact pieces_trailing_last within_trailing
  case isFalse two =>
  split
  case isTrue three =>
    obtain ⟨low, high, within, led⟩ := ofByte_three (v := v) (by omega) three (by omega)
    rw [List.cons_append, pieces, led, twice]
    exact (pieces_trailing_owed within).trans (pieces_trailing_last within_trailing)
  case isFalse three =>
    obtain ⟨low, high, within, led⟩ := ofByte_four (v := v) (by omega) (by omega)
    rw [twice] at within
    rw [List.cons_append, pieces, led, thrice, twice]
    exact (pieces_trailing_owed within).trans
      ((pieces_trailing_owed within_trailing).trans (pieces_trailing_last within_trailing))

/-! ## Texts -/

theorem pieces_flatMap (text : List Char) :
    pieces none (text.flatMap String.utf8EncodeChar) = text.map some := by
  induction text with
  | nil => rfl
  | cons c text ih => rw [List.flatMap_cons, pieces_utf8EncodeChar, ih, List.map_cons]

theorem encode_eq (s : String) : encode s = s.toList.flatMap String.utf8EncodeChar := by
  rw [encode, String.toUTF8, ← String.utf8Encode_toList, List.utf8Encode, List.data_toByteArray]

theorem decode_encode (s : String) : decode (encode s) = s := by
  have read : (fun p : Piece => p.getD replacement) ∘ some = id := rfl
  rw [decode, encode_eq, pieces_flatMap, List.map_map, read, List.map_id, String.ofList_toList]

theorem encode_injective {s t : String} (same : encode s = encode t) : s = t := by
  rw [← decode_encode s, same, decode_encode]

end GuestVM.Text
