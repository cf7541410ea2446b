import Edi.Proofs.Text.Utf8

namespace Edi.Text.Utf8

variable {b low high : UInt8} {n v bits : Nat} {c : Char} {cs : List Char} {l : Lead}
  {bs bytes bad bad' rest rest' : List UInt8}

def Opens (bytes : List UInt8) : Prop := ∃ c, bytes <+: String.utf8EncodeChar c

/-- No character is encoded at the front of `bad ++ rest`, and `bad` is the longest part of it that
could have become one, or else a single byte. -/
structure IllFormed (bad rest : List UInt8) : Prop where
  unconvertible (c : Char) : ¬String.utf8EncodeChar c <+: bad ++ rest
  subpart : bad.length = 1 ∨ bad ≠ [] ∧ Opens bad
  maximal {bytes : List UInt8} : bytes <+: bad ++ rest → Opens bytes → bytes.length ≤ bad.length

/-- The text stands for the bytes, with one `replacement` for each maximal ill-formed part. -/
inductive Decoded : List UInt8 → List Char → Prop
  | nil : Decoded [] []
  | char (c : Char) {rest : List UInt8} {cs : List Char} (h : Decoded rest cs) :
    Decoded (String.utf8EncodeChar c ++ rest) (c :: cs)
  | illFormed {bad rest : List UInt8} {cs : List Char} (hb : IllFormed bad rest)
    (h : Decoded rest cs) : Decoded (bad ++ rest) (replacement :: cs)

theorem Opens.of_isPrefix (h : Opens bytes) (hp : bs <+: bytes) : Opens bs := by
  obtain ⟨c, hc⟩ := h
  exact ⟨c, hp.trans hc⟩

theorem opens_encodeChar (c : Char) : Opens (String.utf8EncodeChar c) := ⟨c, List.prefix_rfl⟩

theorem IllFormed.ne_nil (h : IllFormed bad rest) : bad ≠ [] := by
  rcases h.subpart with hl | ⟨hne, -⟩
  · exact List.ne_nil_of_length_eq_add_one hl
  · exact hne

theorem IllFormed.length_le (h : IllFormed bad rest) (h' : IllFormed bad' rest')
    (he : bad ++ rest = bad' ++ rest') : bad.length ≤ bad'.length := by
  rcases h.subpart with hl | ⟨-, ho⟩
  · exact hl ▸ List.length_pos_iff.2 h'.ne_nil
  · exact h'.maximal (he ▸ List.prefix_append bad rest) ho

theorem IllFormed.unique (h : IllFormed bad rest) (h' : IllFormed bad' rest')
    (he : bad ++ rest = bad' ++ rest') : bad = bad' ∧ rest = rest' :=
  List.append_inj he (Nat.le_antisymm (h.length_le h' he) (h'.length_le h he.symm))

def Fits : Nat → UInt8 → UInt8 → List UInt8 → Prop
  | _, _, _, [] => True
  | 0, _, _, _ :: _ => False
  | n + 1, low, high, b :: bs => low ≤ b ∧ b ≤ high ∧ Fits n 0x80 0xBF bs

theorem Fits.of_isPrefix (h : Fits n low high bytes) (hp : bs <+: bytes) : Fits n low high bs := by
  induction n generalizing low high bs bytes with
  | zero =>
    cases bytes with
    | nil => rwa [List.prefix_nil.1 hp]
    | cons b bytes => exact h.elim
  | succ n ih =>
    cases bs with
    | nil => trivial
    | cons b bs =>
      obtain ⟨rest, rfl⟩ := hp
      exact ⟨h.1, h.2.1, ih h.2.2 ⟨rest, rfl⟩⟩

theorem Fits.extend (h : Fits n low high bs) (hlow : low ≤ high) :
    ∃ bytes, bs <+: bytes ∧ bytes.length = n ∧ Fits n low high bytes := by
  induction n generalizing low high bs with
  | zero =>
    cases bs with
    | nil => exact ⟨[], List.prefix_rfl, rfl, trivial⟩
    | cons b bs => exact h.elim
  | succ n ih =>
    have h80 : (0x80 : UInt8) ≤ 0xBF := by decide
    cases bs with
    | nil =>
      have hnil : Fits n 0x80 0xBF [] := by cases n <;> trivial
      obtain ⟨bytes, -, hl, hf⟩ := ih hnil h80
      exact ⟨low :: bytes, ⟨_, rfl⟩, congrArg (· + 1) hl, UInt8.le_refl _, hlow, hf⟩
    | cons b bs =>
      obtain ⟨bytes, hp, hl, hf⟩ := ih h.2.2 h80
      exact ⟨b :: bytes, List.cons_prefix_cons.2 ⟨rfl, hp⟩, congrArg (· + 1) hl, h.1, h.2.1, hf⟩

theorem follow_cases (n : Nat) (low high : UInt8) (bits : Nat) (bytes : List UInt8) :
    (∃ bs rest c, bytes = bs ++ rest ∧ bs.length = n ∧ Fits n low high bs ∧
        follow n low high bits bytes = some (c, rest)) ∨
      (bytes.length < n ∧ Fits n low high bytes ∧ follow n low high bits bytes = none) ∨
      ∃ bs b rest, bytes = bs ++ b :: rest ∧ bs.length < n ∧ Fits n low high bs ∧
        ¬Fits n low high (bs ++ [b]) ∧
        follow n low high bits bytes = some (replacement, b :: rest) := by
  induction n generalizing low high bits bytes with
  | zero => exact .inl ⟨[], bytes, _, rfl, rfl, trivial, rfl⟩
  | succ n ih =>
    cases bytes with
    | nil => exact .inr (.inl ⟨Nat.succ_pos n, trivial, rfl⟩)
    | cons b bytes =>
      by_cases hb : low ≤ b ∧ b ≤ high
      · have hf : follow (n + 1) low high bits (b :: bytes) =
            follow n 0x80 0xBF (64 * bits + (b.toNat - 0x80)) bytes := by
          simp [follow, hb.1, hb.2]
        rw [hf]
        rcases ih 0x80 0xBF (64 * bits + (b.toNat - 0x80)) bytes with
          ⟨bs, rest, c, rfl, hl, hfit, h⟩ | ⟨hl, hfit, h⟩ | ⟨bs, x, rest, rfl, hl, hfit, hno, h⟩
        · exact .inl ⟨b :: bs, rest, c, rfl, congrArg (· + 1) hl, ⟨hb.1, hb.2, hfit⟩, h⟩
        · exact .inr (.inl ⟨Nat.succ_lt_succ hl, ⟨hb.1, hb.2, hfit⟩, h⟩)
        · exact .inr (.inr ⟨b :: bs, x, rest, rfl, Nat.succ_lt_succ hl, ⟨hb.1, hb.2, hfit⟩,
            fun hx ↦ hno hx.2.2, h⟩)
      · refine .inr (.inr ⟨[], b, bytes, rfl, Nat.succ_pos n, trivial, fun hx ↦ hb ⟨hx.1, hx.2.1⟩,
          ?_⟩)
        rw [follow, if_neg (by simpa using hb)]

theorem follow_of_fits (h : Fits n low high bytes) (hl : bytes.length < n) (bits : Nat) :
    follow n low high bits bytes = none := by
  rcases follow_cases n low high bits bytes with
    ⟨bs, rest, c, rfl, hn, -⟩ | ⟨-, -, hf⟩ | ⟨bs, b, rest, rfl, -, -, hno, -⟩
  · simp only [List.length_append] at hl
    omega
  · exact hf
  · exact absurd (h.of_isPrefix ⟨rest, by simp⟩) hno

theorem fits_of_follow (h : follow n low high bits bytes = some (c, [])) :
    Fits n low high bytes := by
  rcases follow_cases n low high bits bytes with
    ⟨bs, rest, d, rfl, -, hfit, hf⟩ | ⟨-, hfit, -⟩ | ⟨bs, b, rest, rfl, -, -, -, hf⟩
  · obtain ⟨-, rfl⟩ := Prod.mk.inj (Option.some.inj (h.symm.trans hf))
    rwa [List.append_nil]
  · exact hfit
  · simp [h] at hf

theorem exists_char (h : v < 0xD800 ∨ 0xDFFF < v ∧ v < 0x110000) : ∃ c : Char, c.toNat = v :=
  ⟨Char.ofNatAux v h, rfl⟩

theorem exists_encodeChar_of_lt (h : b < 0x80) : ∃ c, String.utf8EncodeChar c = [b] := by
  have hb : b.toNat < 0x80 := UInt8.lt_iff_toNat_lt.1 h
  obtain ⟨c, hc⟩ := exists_char (v := b.toNat) (by omega)
  exact ⟨c, by rw [encodeChar_eq hc, if_pos (by omega), UInt8.ofNat_toNat]⟩

theorem Fits.exists_cons (h : Fits (n + 1) low high bytes) (hn : bytes.length = n + 1)
    (hl : 0x80 ≤ low.toNat) (hh : high.toNat ≤ 0xBF) :
    ∃ v rest, v < 64 ∧ low.toNat ≤ v + 0x80 ∧ v + 0x80 ≤ high.toNat ∧
      bytes = UInt8.ofNat (v + 0x80) :: rest ∧ rest.length = n ∧ Fits n 0x80 0xBF rest := by
  cases bytes with
  | nil => simp at hn
  | cons b rest =>
    have hb := UInt8.le_iff_toNat_le.1 h.1
    have hb' := UInt8.le_iff_toNat_le.1 h.2.1
    have hof : UInt8.ofNat (b.toNat - 0x80 + 0x80) = b := by
      rw [Nat.sub_add_cancel (by omega), UInt8.ofNat_toNat]
    exact ⟨b.toNat - 0x80, rest, by omega, by omega, by omega, by rw [hof], by simpa using hn,
      h.2.2⟩

theorem lead?_cases (h : lead? b = some l) :
    (∃ n, 2 ≤ n ∧ n < 32 ∧ b = UInt8.ofNat (n + 0xC0)) ∨ (∃ n < 16, b = UInt8.ofNat (n + 0xE0)) ∨
      ∃ n < 5, b = UInt8.ofNat (n + 0xF0) := by
  have hall : ∀ n < 256, (lead? (UInt8.ofNat n)).isSome →
      0xC2 ≤ n ∧ n < 0xE0 ∨ 0xE0 ≤ n ∧ n < 0xF0 ∨ 0xF0 ≤ n ∧ n < 0xF5 := by
    decide +kernel
  have hof {n : Nat} (hn : n ≤ b.toNat) : b = UInt8.ofNat (b.toNat - n + n) := by
    rw [Nat.sub_add_cancel hn, UInt8.ofNat_toNat]
  rcases hall b.toNat b.toNat_lt (by simp [h]) with ⟨h₁, h₂⟩ | ⟨h₁, h₂⟩ | ⟨h₁, h₂⟩
  · exact .inl ⟨b.toNat - 0xC0, by omega, by omega, hof (by omega)⟩
  · exact .inr (.inl ⟨b.toNat - 0xE0, by omega, hof h₁⟩)
  · exact .inr (.inr ⟨b.toNat - 0xF0, by omega, hof h₁⟩)

theorem lead?_low_le (h : lead? b = some l) : l.low ≤ l.high := by
  have hall : ∀ n < 256, (lead? (UInt8.ofNat n)).all fun l ↦ l.low ≤ l.high := by decide +kernel
  simpa [h] using hall b.toNat b.toNat_lt

theorem exists_encodeChar (h : lead? b = some l) (hf : Fits l.following l.low l.high bytes)
    (hn : bytes.length = l.following) : ∃ c, String.utf8EncodeChar c = b :: bytes := by
  obtain ⟨h80, h8F, h90, h9F, hA0, hBF⟩ := toNat_bounds
  -- The lead brings the highest bits of the code point, every byte after it the next six.
  rcases lead?_cases h with ⟨n, hn2, hn32, rfl⟩ | ⟨n, hn16, rfl⟩ | ⟨n, hn5, rfl⟩
  · obtain rfl := Option.some.inj ((lead?_two hn2 hn32).symm.trans h)
    obtain ⟨x, _, hx, -, -, rfl, hrest, -⟩ := hf.exists_cons hn h80.ge hBF.le
    obtain rfl := List.length_eq_zero_iff.1 hrest
    obtain ⟨c, hc⟩ := exists_char (v := 64 * n + x) (by omega)
    refine ⟨c, ?_⟩
    rw [encodeChar_eq hc, if_neg (by omega), if_pos (by omega),
      show (64 * n + x) / 64 = n by omega, show (64 * n + x) % 64 = x by omega]
  · obtain rfl := Option.some.inj ((lead?_three hn16).symm.trans h)
    obtain ⟨x, _, hx, hlow, hhigh, rfl, hrest, hf⟩ :=
      hf.exists_cons hn (by dsimp only; split <;> omega) (by dsimp only; split <;> omega)
    obtain ⟨y, _, hy, -, -, rfl, hrest, -⟩ := hf.exists_cons hrest h80.ge hBF.le
    obtain rfl := List.length_eq_zero_iff.1 hrest
    let v := 64 * (64 * n + x) + y
    have hv : 0x800 ≤ v ∧ (v < 0xD800 ∨ 0xDFFF < v ∧ v < 0x10000) := by
      dsimp only at hlow hhigh
      split at hlow <;> split at hhigh <;> omega
    obtain ⟨c, hc⟩ := exists_char (v := v) (by omega)
    refine ⟨c, ?_⟩
    rw [encodeChar_eq hc, if_neg (by omega), if_neg (by omega), if_pos (by omega),
      show v / 4096 = n by omega, show v / 64 % 64 = x by omega, show v % 64 = y by omega]
  · obtain rfl := Option.some.inj ((lead?_four hn5).symm.trans h)
    obtain ⟨x, _, hx, hlow, hhigh, rfl, hrest, hf⟩ :=
      hf.exists_cons hn (by dsimp only; split <;> omega) (by dsimp only; split <;> omega)
    obtain ⟨y, _, hy, -, -, rfl, hrest, hf⟩ := hf.exists_cons hrest h80.ge hBF.le
    obtain ⟨z, _, hz, -, -, rfl, hrest, -⟩ := hf.exists_cons hrest h80.ge hBF.le
    obtain rfl := List.length_eq_zero_iff.1 hrest
    let v := 64 * (64 * (64 * n + x) + y) + z
    have hv : 0x10000 ≤ v ∧ v < 0x110000 := by
      dsimp only at hlow hhigh
      split at hlow <;> split at hhigh <;> omega
    obtain ⟨c, hc⟩ := exists_char (v := v) (by omega)
    refine ⟨c, ?_⟩
    rw [encodeChar_eq hc, if_neg (by omega), if_neg (by omega), if_neg (by omega),
      show v / 262144 = n by omega, show v / 4096 % 64 = x by omega,
      show v / 64 % 64 = y by omega, show v % 64 = z by omega]

theorem opens_cons_iff : Opens (b :: bs) ↔
    b < 0x80 ∧ bs = [] ∨ ∃ l, lead? b = some l ∧ Fits l.following l.low l.high bs := by
  constructor
  · rintro ⟨c, hc⟩
    obtain ⟨rest, hrest⟩ := hc
    have hn := next?_encodeChar c []
    rw [List.append_nil, ← hrest, List.cons_append] at hn
    simp only [next?] at hn
    split at hn
    · next hb =>
      obtain ⟨-, hnil⟩ := Prod.mk.inj (Option.some.inj hn)
      exact .inl ⟨hb, (List.append_eq_nil_iff.1 hnil).1⟩
    · split at hn
      · next hl =>
        obtain ⟨rfl, hnil⟩ := Prod.mk.inj (Option.some.inj hn)
        rw [List.cons_append, hnil] at hrest
        have hthree : (String.utf8EncodeChar replacement).length = 3 := by decide
        simp [← hrest] at hthree
      · next l hl => exact .inr ⟨l, hl, (fits_of_follow hn).of_isPrefix ⟨rest, rfl⟩⟩
  · rintro (⟨hb, rfl⟩ | ⟨l, hl, hf⟩)
    · obtain ⟨c, hc⟩ := exists_encodeChar_of_lt hb
      exact ⟨c, hc ▸ List.prefix_rfl⟩
    · obtain ⟨bytes, hp, hn, hf⟩ := hf.extend (lead?_low_le hl)
      obtain ⟨c, hc⟩ := exists_encodeChar hl hf hn
      exact ⟨c, hc ▸ List.cons_prefix_cons.2 ⟨rfl, hp⟩⟩

theorem illFormed_of_opens (ho : Opens bad) (hne : bad ≠ []) (hn : next? bad = none)
    (hx : ∀ b ∈ rest.head?, ¬Opens (bad ++ [b])) : IllFormed bad rest := by
  have hmax {bytes : List UInt8} (hp : bytes <+: bad ++ rest) (hb : Opens bytes) :
      bytes.length ≤ bad.length := by
    by_contra! hlt
    cases rest with
    | nil => exact absurd hp.length_le (by simpa using hlt)
    | cons b rest =>
      have hb' : bad ++ [b] <+: bytes :=
        List.prefix_of_prefix_length_le ⟨rest, by simp⟩ hp (by simpa using Nat.succ_le_of_lt hlt)
      exact hx b rfl (hb.of_isPrefix hb')
  refine ⟨fun c hc ↦ ?_, .inr ⟨hne, ho⟩, hmax⟩
  obtain ⟨rest', rfl⟩ := List.prefix_of_prefix_length_le hc (List.prefix_append bad rest)
    (hmax hc (opens_encodeChar c))
  simp [next?_encodeChar] at hn

theorem illFormed_singleton (h : ¬Opens [b]) : IllFormed [b] rest := by
  have hmax {bytes : List UInt8} (hp : bytes <+: [b] ++ rest) (hb : Opens bytes) :
      bytes = [] := by
    cases bytes with
    | nil => rfl
    | cons x bytes =>
      obtain ⟨rfl, -⟩ := List.cons_prefix_cons.1 hp
      exact absurd (hb.of_isPrefix (List.prefix_append [x] bytes)) h
  refine ⟨fun c hc ↦ ?_, .inl rfl, fun hp hb ↦ by simp [hmax hp hb]⟩
  exact String.utf8EncodeChar_ne_nil (hmax hc (opens_encodeChar c))

/-- Decoding takes a character, or a maximal ill-formed part, or waits for more of one. -/
theorem next?_cases (hne : bytes ≠ []) :
    (next? bytes = none ∧ IllFormed bytes []) ∨
      ∃ first c rest, next? bytes = some (c, rest) ∧ bytes = first ++ rest ∧
        (first = String.utf8EncodeChar c ∨ c = replacement ∧ IllFormed first rest) := by
  obtain ⟨b, bytes, rfl⟩ := List.exists_cons_of_ne_nil hne
  by_cases hb : b < 0x80
  · obtain ⟨c, hc⟩ := exists_encodeChar_of_lt hb
    have hn := next?_encodeChar c bytes
    rw [hc] at hn
    exact .inr ⟨[b], c, bytes, hn, rfl, .inl hc.symm⟩
  cases hl : lead? b with
  | none =>
    have hn : next? (b :: bytes) = some (replacement, bytes) := by simp [next?, hb, hl]
    refine .inr ⟨[b], _, _, hn, rfl, .inr ⟨rfl, illFormed_singleton ?_⟩⟩
    simp [opens_cons_iff, hb, hl]
  | some l =>
    have hopens {bs : List UInt8} : Opens (b :: bs) ↔ Fits l.following l.low l.high bs := by
      rw [opens_cons_iff]
      simp [hb, hl]
    have hn (bs : List UInt8) : next? (b :: bs) = follow l.following l.low l.high l.bits bs := by
      simp [next?, hb, hl]
    rcases follow_cases l.following l.low l.high l.bits bytes with
      ⟨bs, rest, c, rfl, hlen, hfit, hf⟩ | ⟨hlen, hfit, hf⟩ |
      ⟨bs, x, rest, rfl, hlen, hfit, hno, hf⟩
    · obtain ⟨d, hd⟩ := exists_encodeChar hl hfit hlen
      have hd' := next?_encodeChar d rest
      rw [hd, List.cons_append, hn, hf] at hd'
      obtain ⟨rfl, -⟩ := Prod.mk.inj (Option.some.inj hd')
      exact .inr ⟨b :: bs, c, rest, (hn _).trans hf, rfl, .inl hd.symm⟩
    · refine .inl ⟨(hn _).trans hf, illFormed_of_opens (hopens.2 hfit) hne ((hn _).trans hf) ?_⟩
      simp
    · refine .inr ⟨b :: bs, _, _, (hn _).trans hf, rfl, .inr ⟨rfl, ?_⟩⟩
      refine illFormed_of_opens (hopens.2 hfit) (List.cons_ne_nil _ _)
        ((hn _).trans (follow_of_fits hfit hlen _)) fun y hy ↦ ?_
      obtain rfl := Option.some.inj hy
      exact fun ho ↦ hno (hopens.1 ho)

theorem decoded_lossy (bytes : List UInt8) : Decoded bytes (lossy bytes) := by
  fun_induction lossy bytes with
  | case1 bytes c rest h ih =>
    have hne : bytes ≠ [] := by rintro rfl; simp [next?] at h
    rcases next?_cases hne with ⟨hn, -⟩ | ⟨first, d, rest, hn, rfl, hd⟩
    · simp [h] at hn
    obtain ⟨rfl, rfl⟩ := Prod.mk.inj (Option.some.inj (h.symm.trans hn))
    rcases hd with rfl | ⟨rfl, hb⟩
    · exact .char c ih
    · exact .illFormed hb ih
  | case2 h => exact .nil
  | case3 bytes h hne =>
    rcases next?_cases hne with ⟨-, hb⟩ | ⟨_, _, _, hn, -⟩
    · simpa using Decoded.illFormed hb .nil
    · simp [h] at hn

theorem IllFormed.lossy_append (h : IllFormed bad rest) :
    lossy (bad ++ rest) = replacement :: lossy rest := by
  have hne : bad ++ rest ≠ [] := by simp [h.ne_nil]
  rcases next?_cases hne with
    ⟨hn, hb⟩ | ⟨first, c, rest', hn, he, hc⟩
  · obtain ⟨-, rfl⟩ := h.unique hb (List.append_nil _).symm
    rw [lossy_of_cut hn (by simpa using h.ne_nil), lossy_nil]
  · rcases hc with rfl | ⟨rfl, hb⟩
    · exact absurd ⟨rest', he.symm⟩ (h.unconvertible c)
    · obtain ⟨rfl, rfl⟩ := h.unique hb he
      exact lossy_of_next? hn

/-- There is one text that bytes stand for. -/
theorem decoded_iff : Decoded bytes cs ↔ cs = lossy bytes := by
  refine ⟨fun h ↦ ?_, fun h ↦ h ▸ decoded_lossy bytes⟩
  induction h with
  | nil => exact lossy_nil.symm
  | char c _ ih => rw [lossy_of_next? (next?_encodeChar c _), ih]
  | illFormed hb _ ih => rw [hb.lossy_append, ih]

end Edi.Text.Utf8
