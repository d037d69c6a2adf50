import Mathlib.Tactic

/-!
# `Lib.Base64` — bytes in sixty-four characters

Three bytes are four characters, whatever the alphabet. Texts whose last group is whole need no padding, and only they
are treated here: on them reading is the inverse of writing, both ways.
-/

namespace CpcJudge

/-- Sixty-four characters and their values. -/
structure Alphabet where
  char : ℕ → Char
  value : Char → Option ℕ
  value_char : ∀ n < 64, value (char n) = some n
  char_value : ∀ c n, value c = some n → n < 64 ∧ char n = c

namespace Base64

variable (A : Alphabet)

/-- The characters of three bytes. -/
def encodeGroup (a b c : UInt8) : List Char :=
  let n := (a.toNat * 256 + b.toNat) * 256 + c.toNat
  [A.char (n / 64 ^ 3), A.char (n / 64 ^ 2 % 64), A.char (n / 64 % 64), A.char (n % 64)]

/-- The characters of bytes, in groups of three. -/
def encode : List UInt8 → List Char
  | a :: b :: c :: bytes => encodeGroup A a b c ++ encode bytes
  | _ => []

/-- The bytes of four characters. -/
def decodeGroup (w x y z : ℕ) : List UInt8 :=
  let n := ((w * 64 + x) * 64 + y) * 64 + z
  [UInt8.ofNat (n / 256 ^ 2), UInt8.ofNat (n / 256), UInt8.ofNat n]

/-- The bytes of characters, in groups of four. -/
def decode : List Char → Option (List UInt8)
  | w :: x :: y :: z :: chars => do
    let w ← A.value w
    let x ← A.value x
    let y ← A.value y
    let z ← A.value z
    let bytes ← decode chars
    return decodeGroup w x y z ++ bytes
  | [] => some []
  | _ => none

variable {A : Alphabet} {bytes : List UInt8} {chars : List Char}

theorem decodeGroup_encode (a b c : UInt8) :
    let n := (a.toNat * 256 + b.toNat) * 256 + c.toNat
    decodeGroup (n / 64 ^ 3) (n / 64 ^ 2 % 64) (n / 64 % 64) (n % 64) = [a, b, c] := by
  have ha := a.toNat_lt
  have hb := b.toNat_lt
  have hc := c.toNat_lt
  have hbyte : ∀ (x : UInt8) (m : ℕ), m % 256 = x.toNat → UInt8.ofNat m = x := by
    intro x m hm
    apply UInt8.toNat_inj.mp
    rw [UInt8.toNat_ofNat']
    exact hm
  dsimp only
  rw [decodeGroup, hbyte a _ (by omega), hbyte b _ (by omega), hbyte c _ (by omega)]

theorem encodeGroup_decode {w x y z : ℕ} (hw : w < 64) (hx : x < 64) (hy : y < 64) (hz : z < 64) :
    ∃ a b c, decodeGroup w x y z = [a, b, c] ∧ encodeGroup A a b c = [A.char w, A.char x, A.char y, A.char z] := by
  refine ⟨_, _, _, rfl, ?_⟩
  have hn : ((((w * 64 + x) * 64 + y) * 64 + z) / 256 ^ 2 % 2 ^ 8 * 256 +
      (((w * 64 + x) * 64 + y) * 64 + z) / 256 % 2 ^ 8) * 256 + (((w * 64 + x) * 64 + y) * 64 + z) % 2 ^ 8 =
      ((w * 64 + x) * 64 + y) * 64 + z := by omega
  have hw' : (((w * 64 + x) * 64 + y) * 64 + z) / 64 ^ 3 = w := by omega
  have hx' : (((w * 64 + x) * 64 + y) * 64 + z) / 64 ^ 2 % 64 = x := by omega
  have hy' : (((w * 64 + x) * 64 + y) * 64 + z) / 64 % 64 = y := by omega
  have hz' : (((w * 64 + x) * 64 + y) * 64 + z) % 64 = z := by omega
  simp only [encodeGroup, UInt8.toNat_ofNat', hn, hw', hx', hy', hz']

/-- What is written is read. -/
theorem decode_encode (h : 3 ∣ bytes.length) : decode A (encode A bytes) = some bytes := by
  induction bytes using encode.induct with
  | case1 a b c bytes ih =>
      have ha := a.toNat_lt
      have hb := b.toNat_lt
      have hc := c.toNat_lt
      have hrest : 3 ∣ bytes.length := by
        simp only [List.length_cons] at h
        omega
      have hgroup := decodeGroup_encode a b c
      dsimp only at hgroup
      simp only [encode, encodeGroup, List.cons_append, List.nil_append, decode, ih hrest]
      rw [A.value_char _ (by omega), A.value_char _ (by omega), A.value_char _ (by omega), A.value_char _ (by omega)]
      simp only [Option.bind_eq_bind, Option.bind_some, Option.pure_def, hgroup, List.cons_append, List.nil_append]
  | case2 bytes hshort =>
      rcases bytes with _ | ⟨a, _ | ⟨b, _ | ⟨c, bytes⟩⟩⟩
      · rfl
      · simp at h
      · simp at h
      · exact (hshort a b c bytes rfl).elim

/-- What is read was written. -/
theorem encode_decode (h : decode A chars = some bytes) : encode A bytes = chars := by
  induction chars using decode.induct generalizing bytes with
  | case1 w x y z chars ih =>
      simp only [decode, Option.bind_eq_bind, Option.bind_eq_some_iff, Option.pure_def, Option.some.injEq] at h
      obtain ⟨w', hw, x', hx, y', hy, z', hz, rest, hrest, rfl⟩ := h
      obtain ⟨hw64, rfl⟩ := A.char_value _ _ hw
      obtain ⟨hx64, rfl⟩ := A.char_value _ _ hx
      obtain ⟨hy64, rfl⟩ := A.char_value _ _ hy
      obtain ⟨hz64, rfl⟩ := A.char_value _ _ hz
      obtain ⟨a, b, c, hgroup, hencode⟩ := encodeGroup_decode (A := A) hw64 hx64 hy64 hz64
      rw [hgroup, List.cons_append, List.cons_append, List.cons_append, List.nil_append, encode, hencode, ih hrest]
      rfl
  | case2 =>
      cases h
      rfl
  | case3 chars hnil hshort =>
      rw [decode] at h
      · cases h
      · exact hnil
      · exact hshort

theorem length_encode (h : 3 ∣ bytes.length) : (encode A bytes).length = bytes.length / 3 * 4 := by
  induction bytes using encode.induct with
  | case1 a b c bytes ih =>
      simp only [List.length_cons] at h
      simp only [encode, encodeGroup, List.length_append, List.length_cons, List.length_nil, ih (by omega)]
      omega
  | case2 bytes hshort =>
      rcases bytes with _ | ⟨a, _ | ⟨b, _ | ⟨c, bytes⟩⟩⟩
      · rfl
      · simp at h
      · simp at h
      · exact (hshort a b c bytes rfl).elim

/-- Characters of the alphabet, in groups of four, are read. -/
theorem exists_decode (hchars : ∀ c ∈ chars, (A.value c).isSome = true) (h : 4 ∣ chars.length) :
    ∃ bytes, decode A chars = some bytes ∧ bytes.length = chars.length / 4 * 3 := by
  induction chars using decode.induct with
  | case1 w x y z chars ih =>
      simp only [List.forall_mem_cons, Option.isSome_iff_exists] at hchars
      obtain ⟨⟨w', hw⟩, ⟨x', hx⟩, ⟨y', hy⟩, ⟨z', hz⟩, hrest⟩ := hchars
      simp only [List.length_cons] at h
      obtain ⟨bytes, hbytes, hlength⟩ := ih (by simpa only [Option.isSome_iff_exists] using hrest) (by omega)
      refine ⟨decodeGroup w' x' y' z' ++ bytes, ?_, ?_⟩
      · simp only [decode, hw, hx, hy, hz, hbytes, Option.bind_eq_bind, Option.bind_some, Option.pure_def]
      · simp only [decodeGroup, List.length_append, List.length_cons, List.length_nil, hlength]
        omega
  | case2 => exact ⟨[], rfl, rfl⟩
  | case3 chars hnil hshort =>
      rcases chars with _ | ⟨a, _ | ⟨b, _ | ⟨c, _ | ⟨d, chars⟩⟩⟩⟩
      · exact (hshort rfl).elim
      · simp at h
      · simp at h
      · simp at h
      · exact (hnil a b c d chars rfl).elim

/-- What is written is in the alphabet. -/
theorem value_of_mem_encode {c : Char} (hc : c ∈ encode A bytes) : (A.value c).isSome = true := by
  induction bytes using encode.induct with
  | case1 a b c' bytes ih =>
      rw [encode, List.mem_append] at hc
      rcases hc with hc | hc
      · have ha := a.toNat_lt
        have hb := b.toNat_lt
        have hc' := c'.toNat_lt
        simp only [encodeGroup, List.mem_cons, List.not_mem_nil, or_false] at hc
        rcases hc with rfl | rfl | rfl | rfl
        · rw [A.value_char _ (by omega)]
          rfl
        · rw [A.value_char _ (by omega)]
          rfl
        · rw [A.value_char _ (by omega)]
          rfl
        · rw [A.value_char _ (by omega)]
          rfl
      · exact ih hc
  | case2 bytes hshort =>
      rw [encode] at hc
      · cases hc
      · exact hshort

end Base64
end CpcJudge
