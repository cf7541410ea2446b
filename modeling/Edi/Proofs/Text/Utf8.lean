import Mathlib.Tactic.IntervalCases
import Edi.Text.Utf8

namespace Edi.Text.Utf8

variable {b low high : UInt8} {n v bits max : Nat} {c : Char} {cs : List Char}
  {bytes more rest : List UInt8}

def encode (cs : List Char) : List UInt8 := cs.flatMap String.utf8EncodeChar

theorem lead?_two (h : 2 ≤ n) (h' : n < 32) :
    lead? (UInt8.ofNat (n + 0xC0)) = some ⟨1, 0x80, 0xBF, n⟩ := by
  interval_cases n <;> rfl

theorem lead?_three (h : n < 16) : lead? (UInt8.ofNat (n + 0xE0)) =
    some ⟨2, if n = 0 then 0xA0 else 0x80, if n = 13 then 0x9F else 0xBF, n⟩ := by
  interval_cases n <;> rfl

theorem lead?_four (h : n < 5) : lead? (UInt8.ofNat (n + 0xF0)) =
    some ⟨3, if n = 0 then 0x90 else 0x80, if n = 4 then 0x8F else 0xBF, n⟩ := by
  interval_cases n <;> rfl

theorem follow_cons (hl : low.toNat ≤ v % 64 + 0x80) (hh : v % 64 + 0x80 ≤ high.toNat) :
    follow (n + 1) low high bits (UInt8.ofNat (v % 64 + 0x80) :: rest) =
      follow n 0x80 0xBF (64 * bits + v % 64) rest := by
  have hv : (UInt8.ofNat (v % 64 + 0x80)).toNat = v % 64 + 0x80 := by
    simp only [UInt8.toNat_ofNat']
    omega
  have hb : (low ≤ UInt8.ofNat (v % 64 + 0x80) && UInt8.ofNat (v % 64 + 0x80) ≤ high) = true := by
    simp only [Bool.and_eq_true, decide_eq_true_eq, UInt8.le_iff_toNat_le, hv]
    exact ⟨hl, hh⟩
  have hs : (UInt8.ofNat (v % 64 + 0x80)).toNat - 0x80 = v % 64 := by omega
  simp only [follow, hb, if_true, hs]

theorem next?_cons_lead (hv : 0x80 ≤ v) (hv' : v < 0x100)
    (hl : lead? (UInt8.ofNat v) = some ⟨n, low, high, bits⟩) :
    next? (UInt8.ofNat v :: rest) = follow n low high bits rest := by
  have hb : (UInt8.ofNat v).toNat = v := UInt8.toNat_ofNat_of_lt' hv'
  have hn : ¬UInt8.ofNat v < 0x80 := by
    rw [UInt8.lt_iff_toNat_lt, hb]
    exact Nat.not_lt.2 hv
  simp [next?, hn, hl]

theorem next?_singleton (hv : v < 0x80) (rest : List UInt8) :
    next? (UInt8.ofNat v :: rest) = some (Char.ofNat v, rest) := by
  have hb : (UInt8.ofNat v).toNat = v := by
    rw [UInt8.toNat_ofNat']
    omega
  have hn : UInt8.ofNat v < 0x80 := by
    rw [UInt8.lt_iff_toNat_lt, hb]
    exact hv
  simp [next?, hn, hb]

theorem toNat_bounds : (0x80 : UInt8).toNat = 0x80 ∧ (0x8F : UInt8).toNat = 0x8F ∧
    (0x90 : UInt8).toNat = 0x90 ∧ (0x9F : UInt8).toNat = 0x9F ∧ (0xA0 : UInt8).toNat = 0xA0 ∧
    (0xBF : UInt8).toNat = 0xBF := ⟨rfl, rfl, rfl, rfl, rfl, rfl⟩

theorem encodeChar_eq (h : c.toNat = v) :
    String.utf8EncodeChar c =
      if v ≤ 0x7F then [UInt8.ofNat v]
      else if v ≤ 0x7FF then [UInt8.ofNat (v / 64 + 0xC0), UInt8.ofNat (v % 64 + 0x80)]
      else if v ≤ 0xFFFF then
        [UInt8.ofNat (v / 4096 + 0xE0), UInt8.ofNat (v / 64 % 64 + 0x80),
          UInt8.ofNat (v % 64 + 0x80)]
      else
        [UInt8.ofNat (v / 262144 + 0xF0), UInt8.ofNat (v / 4096 % 64 + 0x80),
          UInt8.ofNat (v / 64 % 64 + 0x80), UInt8.ofNat (v % 64 + 0x80)] := by
  have hv : v < 0xD800 ∨ 0xDFFF < v ∧ v < 0x110000 := h ▸ c.valid
  have hcv : c.val.toNat = v := h
  have h1 : v / 64 % 32 = v / 64 ∨ 0x7FF < v := by omega
  have h2 : v / 4096 % 16 = v / 4096 ∨ 0xFFFF < v := by omega
  have h3 : v / 262144 % 8 = v / 262144 := by omega
  simp only [String.utf8EncodeChar, hcv]
  split
  · rfl
  split
  · rw [h1.resolve_right (by omega)]
  split
  · rw [h2.resolve_right (by omega)]
  · rw [h3]

theorem next?_encodeChar (c : Char) (rest : List UInt8) :
    next? (String.utf8EncodeChar c ++ rest) = some (c, rest) := by
  have hv : c.toNat < 0xD800 ∨ 0xDFFF < c.toNat ∧ c.toNat < 0x110000 := c.valid
  have hc : Char.ofNat c.toNat = c := Char.ofNat_toNat c
  obtain ⟨h80, h8F, h90, h9F, hA0, hBF⟩ := toNat_bounds
  generalize hw : c.toNat = v at hv hc
  rw [encodeChar_eq hw]
  split
  · rw [List.singleton_append, next?_singleton (by omega), hc]
  split
  · simp only [List.cons_append, List.nil_append]
    rw [next?_cons_lead (by omega) (by omega) (lead?_two (by omega) (by omega)),
      follow_cons (by omega) (by omega), follow, Nat.div_add_mod, hc]
  split
  · have hs : 64 * (64 * (v / 4096) + v / 64 % 64) + v % 64 = v := by omega
    simp only [List.cons_append, List.nil_append]
    rw [next?_cons_lead (by omega) (by omega) (lead?_three (by omega)),
      follow_cons (by split <;> omega) (by split <;> omega), follow_cons (by omega) (by omega),
      follow, hs, hc]
  · have hs : 64 * (64 * (64 * (v / 262144) + v / 4096 % 64) + v / 64 % 64) + v % 64 = v := by
      omega
    simp only [List.cons_append, List.nil_append]
    rw [next?_cons_lead (by omega) (by omega) (lead?_four (by omega)),
      follow_cons (by split <;> omega) (by split <;> omega), follow_cons (by omega) (by omega),
      follow_cons (by omega) (by omega), follow, hs, hc]

theorem follow_append (h : follow n low high bits bytes = some (c, rest)) (more : List UInt8) :
    follow n low high bits (bytes ++ more) = some (c, rest ++ more) := by
  induction n generalizing low high bits bytes with
  | zero =>
    obtain ⟨rfl, rfl⟩ := Prod.mk.inj (Option.some.inj h)
    rfl
  | succ n ih =>
    cases bytes with
    | nil => simp [follow] at h
    | cons b bytes =>
      simp only [follow, List.cons_append] at h ⊢
      split at h
      · next hb =>
        rw [if_pos hb]
        exact ih h
      · next hb =>
        obtain ⟨rfl, rfl⟩ := Prod.mk.inj (Option.some.inj h)
        rw [if_neg hb]
        rfl

theorem next?_append (h : next? bytes = some (c, rest)) (more : List UInt8) :
    next? (bytes ++ more) = some (c, rest ++ more) := by
  cases bytes with
  | nil => simp [next?] at h
  | cons b bytes =>
    simp only [next?, List.cons_append] at h ⊢
    split at h
    · next hb =>
      obtain ⟨rfl, rfl⟩ := Prod.mk.inj (Option.some.inj h)
      rw [if_pos hb]
    · next hb =>
      rw [if_neg hb]
      cases hl : lead? b with
      | none =>
        rw [hl] at h
        obtain ⟨rfl, rfl⟩ := Prod.mk.inj (Option.some.inj h)
        rfl
      | some l =>
        rw [hl] at h
        exact follow_append h more

theorem encode_cons (c : Char) (cs : List Char) :
    encode (c :: cs) = String.utf8EncodeChar c ++ encode cs := List.flatMap_cons

theorem encode_eq_nil : encode cs = [] ↔ cs = [] := by
  constructor
  · intro h
    cases cs with
    | nil => rfl
    | cons c cs =>
      have hn := next?_encodeChar c (encode cs)
      rw [← encode_cons, h] at hn
      simp [next?] at hn
  · rintro rfl
    rfl

theorem encode_injective {cs ds : List Char} (h : encode cs = encode ds) : cs = ds := by
  induction cs generalizing ds with
  | nil => exact (encode_eq_nil.1 h.symm).symm
  | cons c cs ih =>
    cases ds with
    | nil => exact encode_eq_nil.1 h
    | cons d ds =>
      have hn := congrArg next? h
      rw [encode_cons, encode_cons, next?_encodeChar, next?_encodeChar] at hn
      obtain ⟨rfl, he⟩ := Prod.mk.inj (Option.some.inj hn)
      rw [ih he]

theorem next?_of_append_eq (h : bytes ++ more = encode cs) (hn : next? bytes = some (c, rest)) :
    ∃ cs', cs = c :: cs' ∧ rest ++ more = encode cs' := by
  have ha := next?_append hn more
  rw [h] at ha
  cases cs with
  | nil => simp [encode, next?] at ha
  | cons d cs =>
    rw [encode_cons, next?_encodeChar] at ha
    obtain ⟨rfl, hr⟩ := Prod.mk.inj (Option.some.inj ha)
    exact ⟨cs, rfl, hr.symm⟩

theorem decode_of_append_eq (h : bytes ++ more = encode cs) (max : Nat) :
    ∃ k ≤ max, (decode max bytes).1 = cs.take k ∧ k ≤ cs.length ∧
      (decode max bytes).2 ++ more = encode (cs.drop k) ∧
      (k < max → next? (decode max bytes).2 = none) := by
  induction max generalizing bytes cs with
  | zero => exact ⟨0, Nat.le_refl _, rfl, Nat.zero_le _, h, fun hk ↦ absurd hk (Nat.lt_irrefl _)⟩
  | succ max ih =>
    simp only [decode]
    cases hn : next? bytes with
    | none => exact ⟨0, Nat.zero_le _, rfl, Nat.zero_le _, h, fun _ ↦ hn⟩
    | some found =>
      obtain ⟨c, rest⟩ := found
      obtain ⟨cs', rfl, hr⟩ := next?_of_append_eq h hn
      obtain ⟨k, hk, ht, hl, hd, hw⟩ := ih hr
      refine ⟨k + 1, Nat.succ_le_succ hk, ?_, Nat.succ_le_succ hl, hd, ?_⟩
      · simp only [ht, List.take_succ_cons]
      · exact fun hk ↦ hw (Nat.lt_of_succ_lt_succ hk)

/-- The text that bytes stand for. Each beginning that no character has is read as one
`replacement`, and so is a character that the end cuts off. -/
def lossy (bytes : List UInt8) : List Char :=
  match _h : next? bytes with
  | some (c, rest) => c :: lossy rest
  | none => if bytes = [] then [] else [replacement]
termination_by bytes.length
decreasing_by exact next?_length _h

@[simp] theorem lossy_nil : lossy [] = [] := by
  rw [lossy]
  rfl

theorem lossy_of_next? (h : next? bytes = some (c, rest)) : lossy bytes = c :: lossy rest := by
  rw [lossy]
  split
  · next h' =>
    obtain ⟨rfl, rfl⟩ := Prod.mk.inj (Option.some.inj (h'.symm.trans h))
    rfl
  · next h' => simp [h] at h'

theorem lossy_of_cut (h : next? bytes = none) (hb : bytes ≠ []) : lossy bytes = [replacement] := by
  rw [lossy]
  split
  · next h' => simp [h] at h'
  · rw [if_neg hb]

theorem lossy_decode (max : Nat) (bytes more : List UInt8) :
    lossy (bytes ++ more) = (decode max bytes).1 ++ lossy ((decode max bytes).2 ++ more) := by
  induction max generalizing bytes with
  | zero => rfl
  | succ max ih =>
    simp only [decode]
    cases hn : next? bytes with
    | none => rfl
    | some found =>
      obtain ⟨c, rest⟩ := found
      rw [lossy_of_next? (next?_append hn more), ih rest]
      rfl

theorem length_decode_le (max : Nat) (bytes : List UInt8) : (decode max bytes).1.length ≤ max := by
  induction max generalizing bytes with
  | zero => exact Nat.le_refl 0
  | succ max ih =>
    simp only [decode]
    split
    · exact Nat.zero_le _
    · exact Nat.succ_le_succ (ih _)

theorem next?_of_decode_nil (hm : max ≠ 0) (h : (decode max bytes).1 = []) :
    next? bytes = none := by
  cases max with
  | zero => contradiction
  | succ max =>
    simp only [decode] at h
    cases hn : next? bytes with
    | none => rfl
    | some found => simp [hn] at h

end Edi.Text.Utf8
