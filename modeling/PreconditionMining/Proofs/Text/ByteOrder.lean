/-
# The order of texts by their bytes

Texts are compared by the numbers of their characters, and stored as bytes, with one to
four bytes for a character.  The two orders are the same (`lt_iff_bytes_lt`): the first
byte of a character tells how many bytes it has, more bytes stand for a greater number,
and among characters with equally many bytes the first byte that differs is a digit of
the number in base 64, the higher digits standing in front (`div_lt_or_mod_lt`).
-/

namespace PreconditionMining
namespace ByteOrder

/-- The bytes of a text. -/
def bytes (s : String) : List UInt8 := s.toByteArray.data.toList

/-- The bytes of a text are those of its characters. -/
theorem bytes_eq (s : String) : bytes s = s.toList.flatMap String.utf8EncodeChar := by
  rw [bytes, ← String.utf8Encode_toList, List.utf8Encode, List.toList_data_toByteArray]

theorem length_bytes (s : String) : (bytes s).length = s.utf8ByteSize := rfl

/-- Lists of bytes that are given by numbers are compared by these. -/
theorem cons_lt_cons_iff {m n : Nat} (hm : m < 256) (hn : n < 256) {x y : List UInt8} :
    UInt8.ofNat m :: x < UInt8.ofNat n :: y ↔ m < n ∨ m = n ∧ x < y := by
  rw [List.cons_lt_cons_iff, UInt8.lt_iff_toNat_lt, ← UInt8.toNat_inj, UInt8.toNat_ofNat',
    UInt8.toNat_ofNat', Nat.mod_eq_of_lt hm, Nat.mod_eq_of_lt hn]

/-- Of two numbers the smaller one has smaller higher digits, or the same and a smaller last one. -/
theorem div_lt_or_mod_lt {m n : Nat} (less : m < n) (base : Nat) :
    m / base < n / base ∨ m / base = n / base ∧ m % base < n % base := by
  have high : m / base ≤ n / base := Nat.div_le_div_right (Nat.le_of_lt less)
  rcases Nat.lt_or_eq_of_le high with lower | same
  · exact .inl lower
  · have hm := Nat.div_add_mod m base
    have hn := Nat.div_add_mod n base
    rw [same] at hm
    exact .inr ⟨same, by omega⟩

theorem val_lt (c : Char) : c.val.toNat < 1114112 := by
  have valid := c.valid
  unfold UInt32.isValidChar Nat.isValidChar at valid
  omega

/-- **The bytes of a smaller character come first,** whatever follows them. -/
theorem encode_append_lt {c d : Char} (less : c < d) (x y : List UInt8) :
    String.utf8EncodeChar c ++ x < String.utf8EncodeChar d ++ y := by
  have smaller : c.val.toNat < d.val.toNat := UInt32.lt_iff_toNat_lt.1 less
  have hc := val_lt c
  have hd := val_lt d
  unfold String.utf8EncodeChar
  generalize c.val.toNat = m at smaller hc ⊢
  generalize d.val.toNat = n at smaller hd ⊢
  -- the digits of both numbers, from the last one up
  have ones := div_lt_or_mod_lt smaller 64
  have second (h : m / 64 < n / 64) := div_lt_or_mod_lt h 64
  have third (h : m / 64 / 64 < n / 64 / 64) := div_lt_or_mod_lt h 64
  have square (k : Nat) : k / 4096 = k / 64 / 64 := by omega
  have cube (k : Nat) : k / 262144 = k / 64 / 64 / 64 := by omega
  simp only [square, cube]
  -- one case for each pair of lengths; a shorter character is not the greater one
  repeat' split
  all_goals try omega
  all_goals
    simp (disch := omega) only [List.cons_append, List.nil_append, cons_lt_cons_iff]
    omega

theorem flatMap_lt {l m : List Char} (less : l < m) :
    l.flatMap String.utf8EncodeChar < m.flatMap String.utf8EncodeChar := by
  induction l generalizing m with
  | nil =>
    cases m with
    | nil => exact absurd less (List.lt_irrefl _)
    | cons d m =>
      obtain ⟨b, x, first⟩ := List.exists_cons_of_ne_nil (String.utf8EncodeChar_ne_nil (c := d))
      rw [List.flatMap_cons, first]
      exact List.nil_lt_cons b _
  | cons c l ih =>
    cases m with
    | nil => exact absurd less (List.not_lt_nil _)
    | cons d m =>
      rw [List.flatMap_cons, List.flatMap_cons]
      rcases List.cons_lt_cons_iff.1 less with before | ⟨rfl, later⟩
      · exact encode_append_lt before _ _
      · exact List.append_left_lt (ih later)

/-- **Texts are in the order of their bytes.** -/
theorem lt_iff_bytes_lt {s t : String} : s < t ↔ bytes s < bytes t := by
  have forwards {s t : String} (less : s < t) : bytes s < bytes t := by
    rw [bytes_eq, bytes_eq]
    exact flatMap_lt less
  refine ⟨forwards, fun less => String.not_le.1 fun back => ?_⟩
  by_cases same : s = t
  · subst same
    exact List.lt_irrefl _ less
  · have above : t < s := String.not_le.1 fun below => same (String.le_antisymm below back)
    exact List.lt_asymm (forwards above) less

end ByteOrder
end PreconditionMining
