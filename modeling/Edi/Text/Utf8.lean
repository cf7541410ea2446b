namespace Edi.Text.Utf8

def replacement : Char := '\uFFFD'

/-- What the first byte of a sequence of several bytes fixes: how many follow it, the bounds of
the second byte, and the leading bits of the code point. -/
structure Lead where
  following : Nat
  low : UInt8
  high : UInt8
  bits : Nat

def lead? (b : UInt8) : Option Lead :=
  if 0xC2 ≤ b && b ≤ 0xDF then some ⟨1, 0x80, 0xBF, b.toNat - 0xC0⟩
  else if b == 0xE0 then some ⟨2, 0xA0, 0xBF, 0⟩
  else if b == 0xED then some ⟨2, 0x80, 0x9F, 0xD⟩
  else if 0xE1 ≤ b && b ≤ 0xEF then some ⟨2, 0x80, 0xBF, b.toNat - 0xE0⟩
  else if b == 0xF0 then some ⟨3, 0x90, 0xBF, 0⟩
  else if 0xF1 ≤ b && b ≤ 0xF3 then some ⟨3, 0x80, 0xBF, b.toNat - 0xF0⟩
  else if b == 0xF4 then some ⟨3, 0x80, 0x8F, 4⟩
  else none

/-- Reads `n` more bytes of a sequence whose bits so far are `bits`, the next one between `low`
and `high`; `none` when the bytes end first. A byte out of bounds is left where it is. -/
def follow : Nat → UInt8 → UInt8 → Nat → List UInt8 → Option (Char × List UInt8)
  | 0, _, _, bits, rest => some (Char.ofNat bits, rest)
  | _ + 1, _, _, _, [] => none
  | n + 1, low, high, bits, b :: rest =>
    if low ≤ b && b ≤ high then follow n 0x80 0xBF (64 * bits + (b.toNat - 0x80)) rest
    else some (replacement, b :: rest)

/-- The first character of a byte string and the bytes after it; `none` when more bytes are
needed to tell. The longest beginning that no character has is read as one `replacement`. -/
def next? : List UInt8 → Option (Char × List UInt8)
  | [] => none
  | b :: rest =>
    if b < 0x80 then some (Char.ofNat b.toNat, rest)
    else match lead? b with
      | none => some (replacement, rest)
      | some l => follow l.following l.low l.high l.bits rest

def decode : Nat → List UInt8 → List Char × List UInt8
  | 0, bytes => ([], bytes)
  | max + 1, bytes =>
    match next? bytes with
    | none => ([], bytes)
    | some (c, rest) =>
      let d := decode max rest
      (c :: d.1, d.2)

theorem follow_length {n : Nat} {low high : UInt8} {bits : Nat} {bytes rest : List UInt8}
    {c : Char} (h : follow n low high bits bytes = some (c, rest)) :
    rest.length ≤ bytes.length := by
  induction n generalizing low high bits bytes with
  | zero =>
    simp only [follow, Option.some.injEq, Prod.mk.injEq] at h
    simp [h.2]
  | succ n ih =>
    cases bytes with
    | nil => simp [follow] at h
    | cons b bytes =>
      simp only [follow] at h
      split at h
      · exact Nat.le_succ_of_le (ih h)
      · simp only [Option.some.injEq, Prod.mk.injEq] at h
        simp [← h.2]

theorem next?_length {bytes rest : List UInt8} {c : Char} (h : next? bytes = some (c, rest)) :
    rest.length < bytes.length := by
  cases bytes with
  | nil => simp [next?] at h
  | cons b bytes =>
    simp only [next?] at h
    split at h
    · simp only [Option.some.injEq, Prod.mk.injEq] at h
      simp [h.2]
    · split at h
      · simp only [Option.some.injEq, Prod.mk.injEq] at h
        simp [h.2]
      · exact Nat.lt_succ_of_le (follow_length h)

theorem decode_length (max : Nat) (bytes : List UInt8) :
    (decode max bytes).1.length + (decode max bytes).2.length ≤ bytes.length := by
  induction max generalizing bytes with
  | zero => simp [decode]
  | succ max ih =>
    simp only [decode]
    split
    · simp
    · next c rest h =>
      have hr := next?_length h
      have hd := ih rest
      simp only [List.length_cons]
      omega

end Edi.Text.Utf8
