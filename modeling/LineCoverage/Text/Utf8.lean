/-!
# `LineCoverage.Text.Utf8`: characters and bytes

Files hold bytes, and everything else in the library holds characters. Writing
is the usual encoding in one to four bytes. Reading never fails: where the bytes
are no encoding of a character, it puts the replacement character `U+FFFD`, one
for every longest stretch of bytes that begins some character's encoding and
then stops short, and one for every byte that begins none.

The reader goes byte by byte. After the first byte of a longer encoding it knows
how many bytes are owed and in which interval the next one has to lie. The
intervals are narrower after `0xE0`, `0xED`, `0xF0` and `0xF4`, which keeps out
encodings that are longer than needed, surrogates, and codes beyond the last
character.

`decode_encode` says that what was written is read back.
-/

set_option autoImplicit false

namespace LineCoverage.Text.Utf8

/-- The bytes of a character, as numbers. -/
def octets (c : Char) : List Nat :=
  let n := c.toNat
  if n < 0x80 then [n]
  else if n < 0x800 then [0xC0 + n / 64, 0x80 + n % 64]
  else if n < 0x10000 then [0xE0 + n / 4096, 0x80 + n / 64 % 64, 0x80 + n % 64]
  else [0xF0 + n / 262144, 0x80 + n / 4096 % 64, 0x80 + n / 64 % 64, 0x80 + n % 64]

/-- The encoding of a text. -/
def encode (text : List Char) : List UInt8 :=
  text.flatMap fun c => (octets c).map UInt8.ofNat

/-- An encoding that is not complete: the bits so far, how many bytes are owed after the next
one, and the interval in which the next one lies. -/
structure Pending where
  code : Nat
  owed : Nat
  low : Nat
  high : Nat
  deriving DecidableEq, Repr

/-- What the first byte of a longer encoding announces. -/
def Pending.ofLead? (b : Nat) : Option Pending :=
  if b < 0xC2 then none
  else if b ≤ 0xDF then some ⟨b - 0xC0, 0, 0x80, 0xBF⟩
  else if b = 0xE0 then some ⟨0, 1, 0xA0, 0xBF⟩
  else if b = 0xED then some ⟨0xD, 1, 0x80, 0x9F⟩
  else if b ≤ 0xEF then some ⟨b - 0xE0, 1, 0x80, 0xBF⟩
  else if b = 0xF0 then some ⟨0, 2, 0x90, 0xBF⟩
  else if b ≤ 0xF3 then some ⟨b - 0xF0, 2, 0x80, 0xBF⟩
  else if b = 0xF4 then some ⟨4, 2, 0x80, 0x8F⟩
  else none

/-- The reader between two bytes: the characters so far, last one first, and the encoding
under way, if any. -/
structure Decoder where
  done : List Char
  pending : Option Pending
  deriving DecidableEq, Repr

/-- The character in the place of bytes that encode none. -/
def replacement : Char := '\ufffd'

/-- Reads a byte at which an encoding has to begin. -/
def Decoder.start (done : List Char) (b : Nat) : Decoder :=
  if b < 0x80 then ⟨Char.ofNat b :: done, none⟩
  else match Pending.ofLead? b with
    | some pending => ⟨done, some pending⟩
    | none => ⟨replacement :: done, none⟩

/-- Reads one byte. A byte outside the interval ends the encoding under way, and is read
again as the beginning of another. -/
def Decoder.step (decoder : Decoder) (byte : UInt8) : Decoder :=
  let b := byte.toNat
  match decoder.pending with
  | none => Decoder.start decoder.done b
  | some p =>
    if p.low ≤ b && b ≤ p.high then
      let code := p.code * 64 + (b - 0x80)
      match p.owed with
      | 0 => ⟨Char.ofNat code :: decoder.done, none⟩
      | owed + 1 => ⟨decoder.done, some ⟨code, owed, 0x80, 0xBF⟩⟩
    else Decoder.start (replacement :: decoder.done) b

/-- The text when no byte is left: an encoding under way has stopped short. -/
def Decoder.finish (decoder : Decoder) : List Char :=
  (if decoder.pending.isSome then replacement :: decoder.done else decoder.done).reverse

/-- The text of some bytes. -/
def decode (bytes : List UInt8) : List Char :=
  (bytes.foldl Decoder.step ⟨[], none⟩).finish

/-! ### Reading back what was written

A character takes one of four shapes, by the size of its code point. In each,
the first byte announces the right number of bytes, every further byte lies in
its interval, and the bits put together are the code point. -/

/-- A code point is no surrogate and not beyond the last character. -/
private theorem toNat_bounds (c : Char) :
    (c.toNat < 0xD800 ∨ 0xDFFF < c.toNat) ∧ c.toNat < 0x110000 := by
  have h := c.valid
  simp only [UInt32.isValidChar, Nat.isValidChar] at h
  simp only [Char.toNat]
  omega

/-- Between two encodings, a byte begins one. -/
private theorem step_begin (done : List Char) {b : Nat} (hb : b < 256) :
    Decoder.step ⟨done, none⟩ (UInt8.ofNat b) = Decoder.start done b := by
  have htoNat : (UInt8.ofNat b).toNat = b := by simp only [UInt8.toNat_ofNat']; omega
  simp only [Decoder.step, htoNat]

/-- A byte in its interval that others follow adds its six bits. -/
private theorem step_more (done : List Char) {code owed low high b : Nat}
    (hlow : low ≤ b) (hhigh : b ≤ high) (hb : b < 256) :
    Decoder.step ⟨done, some ⟨code, owed + 1, low, high⟩⟩ (UInt8.ofNat b)
      = ⟨done, some ⟨code * 64 + (b - 0x80), owed, 0x80, 0xBF⟩⟩ := by
  have htoNat : (UInt8.ofNat b).toNat = b := by simp only [UInt8.toNat_ofNat']; omega
  simp only [Decoder.step, htoNat, hlow, hhigh, decide_true, Bool.and_self, if_true]

/-- A last byte in its interval completes the character. -/
private theorem step_last (done : List Char) {code low high b : Nat}
    (hlow : low ≤ b) (hhigh : b ≤ high) (hb : b < 256) :
    Decoder.step ⟨done, some ⟨code, 0, low, high⟩⟩ (UInt8.ofNat b)
      = ⟨Char.ofNat (code * 64 + (b - 0x80)) :: done, none⟩ := by
  have htoNat : (UInt8.ofNat b).toNat = b := by simp only [UInt8.toNat_ofNat']; omega
  simp only [Decoder.step, htoNat, hlow, hhigh, decide_true, Bool.and_self, if_true]

/-- The first byte of a two-byte encoding. -/
private theorem start_two (done : List Char) {b : Nat} (hlow : 0xC2 ≤ b) (hhigh : b ≤ 0xDF) :
    Decoder.start done b = ⟨done, some ⟨b - 0xC0, 0, 0x80, 0xBF⟩⟩ := by
  have hnot : ¬ b < 0x80 := by omega
  have hnot' : ¬ b < 0xC2 := by omega
  simp only [Decoder.start, Pending.ofLead?, hnot, hnot', hhigh, if_true, if_false]

/-- The first byte of a three-byte encoding, and the interval of the second: no encoding that
two bytes could hold after `0xE0`, no surrogate after `0xED`. -/
private theorem start_three (done : List Char) {b : Nat} (hlow : 0xE0 ≤ b) (hhigh : b ≤ 0xEF) :
    Decoder.start done b = ⟨done, some ⟨b - 0xE0, 1,
      if b = 0xE0 then 0xA0 else 0x80, if b = 0xED then 0x9F else 0xBF⟩⟩ := by
  have hnot : ¬ b < 0x80 := by omega
  have hnot' : ¬ b < 0xC2 := by omega
  have hnot'' : ¬ b ≤ 0xDF := by omega
  simp only [Decoder.start, Pending.ofLead?, hnot, hnot', hnot'', hhigh, if_true, if_false]
  by_cases h0 : b = 0xE0
  · subst h0; rfl
  by_cases hD : b = 0xED
  · subst hD; rfl
  · simp only [h0, hD, if_false]

/-- The first byte of a four-byte encoding, and the interval of the second: no encoding that
three bytes could hold after `0xF0`, nothing beyond the last character after `0xF4`. -/
private theorem start_four (done : List Char) {b : Nat} (hlow : 0xF0 ≤ b) (hhigh : b ≤ 0xF4) :
    Decoder.start done b = ⟨done, some ⟨b - 0xF0, 2,
      if b = 0xF0 then 0x90 else 0x80, if b = 0xF4 then 0x8F else 0xBF⟩⟩ := by
  have hcases : b = 0xF0 ∨ b = 0xF1 ∨ b = 0xF2 ∨ b = 0xF3 ∨ b = 0xF4 := by omega
  rcases hcases with rfl | rfl | rfl | rfl | rfl <;> rfl

/-- From between two encodings, the bytes of a character give that character. -/
theorem foldl_step_octets (done : List Char) (c : Char) :
    ((octets c).map UInt8.ofNat).foldl Decoder.step ⟨done, none⟩ = ⟨c :: done, none⟩ := by
  obtain ⟨hsurrogate, hlast⟩ := toNat_bounds c
  have hback := Char.ofNat_toNat c
  unfold octets
  generalize c.toNat = n at *
  dsimp only
  split
  · rename_i hone
    simp only [List.map_cons, List.map_nil, List.foldl_cons, List.foldl_nil]
    rw [step_begin done (by omega), Decoder.start, if_pos hone, hback]
  split
  · simp only [List.map_cons, List.map_nil, List.foldl_cons, List.foldl_nil]
    rw [step_begin done (by omega), start_two done (by omega) (by omega),
      step_last done (by omega) (by omega) (by omega)]
    rw [show (0xC0 + n / 64 - 0xC0) * 64 + (0x80 + n % 64 - 0x80) = n by omega, hback]
  split
  · simp only [List.map_cons, List.map_nil, List.foldl_cons, List.foldl_nil]
    rw [step_begin done (by omega), start_three done (by omega) (by omega),
      step_more done (by split <;> omega) (by split <;> omega) (by omega),
      step_last done (by omega) (by omega) (by omega)]
    rw [show ((0xE0 + n / 4096 - 0xE0) * 64 + (0x80 + n / 64 % 64 - 0x80)) * 64
      + (0x80 + n % 64 - 0x80) = n by omega, hback]
  · simp only [List.map_cons, List.map_nil, List.foldl_cons, List.foldl_nil]
    rw [step_begin done (by omega), start_four done (by omega) (by omega),
      step_more done (by split <;> omega) (by split <;> omega) (by omega),
      step_more done (by omega) (by omega) (by omega),
      step_last done (by omega) (by omega) (by omega)]
    rw [show (((0xF0 + n / 262144 - 0xF0) * 64 + (0x80 + n / 4096 % 64 - 0x80)) * 64
      + (0x80 + n / 64 % 64 - 0x80)) * 64 + (0x80 + n % 64 - 0x80) = n by omega, hback]

/-- The bytes of a text, read from between two encodings, give its characters in turn. -/
private theorem foldl_step_encode (done text : List Char) :
    (encode text).foldl Decoder.step ⟨done, none⟩ = ⟨text.reverse ++ done, none⟩ := by
  induction text generalizing done with
  | nil => rfl
  | cons c rest ih =>
      have hsplit : encode (c :: rest) = (octets c).map UInt8.ofNat ++ encode rest := by
        simp only [encode, List.flatMap_cons]
      rw [hsplit, List.foldl_append, foldl_step_octets, ih]
      simp

/-- A text that was written is read back. -/
theorem decode_encode (text : List Char) : decode (encode text) = text := by
  simp [decode, foldl_step_encode, Decoder.finish]

end LineCoverage.Text.Utf8
