import Edi.Proofs.Envelope.Marks
import Edi.Proofs.Reader.Follow
import Edi.Proofs.Reader.Header

namespace Edi

variable {ρ : Renaming} {policy : Policy} {options : Options} {earlier : List Problem}

namespace Reader

/-- Two readers that differ in their scanners only, and these are at the same place, one in a text
and the other in the renamed text. -/
def Renamed (ρ : Renaming) (r s : Reader) : Prop :=
  ∃ u, r.scanner.Renamed ρ u ∧ s = { r with scanner := u }

variable {m m' : Marks} {values : List (List Char)} {rest : List Char} {header : Segment}
  {r s r' : Reader} {c : Closing}

theorem readHeaderSegment_preamble {standard : Standard} {start : Nat} {trims : Bool}
    {after : List Char} {t u : Scanner} :
    readHeaderSegment standard start (m.preamble trims values after) t = (.ok header, u) ↔
      t.passSegment (Marks.headerLength values) = (.ok (), u) ∧
        (m.segment trims values).shift start = header := by
  simp only [readHeaderSegment, Marks.preamble]
  split <;> simp_all [and_comm]

theorem readHeaderSegment_renamed {standard : Standard} {start : Nat} {trims : Bool}
    {after : List Char} {t u x : Scanner} {d : Delimiters} (h : t.Renamed ρ u)
    (hr : readHeaderSegment standard start (m.preamble trims values after)
      { t with delimiters := d } = (.ok header, x))
    (m' : Marks) (after' : List Char) (d' : Delimiters) :
    header = (m.segment trims values).shift start ∧
      ∃ y, readHeaderSegment standard start (m'.preamble trims values after')
        { u with delimiters := d' } = (.ok ((m'.segment trims values).shift start), y) ∧
          x.Renamed ρ y := by
  obtain ⟨hpass, rfl⟩ := readHeaderSegment_preamble.1 hr
  have h' : Scanner.Renamed ρ { t with delimiters := d } { u with delimiters := d' } :=
    ⟨h.cursor, h.trims, h.maxElementLength⟩
  obtain ⟨y, hy, hxy⟩ := h'.passSegment _ hpass
  exact ⟨rfl, y, readHeaderSegment_preamble.2 ⟨hy, rfl⟩, hxy⟩

namespace Renamed

theorem run {tr : Transition} (hρ : ρ.Carries r.scanner.delimiters s.scanner.delimiters)
    (h : r.Renamed ρ s) (hok : (r.run policy earlier tr).1.result = .ok c) :
    (s.run policy earlier tr).1 = (r.run policy earlier tr).1 ∧
      (r.run policy earlier tr).2.Renamed ρ (s.run policy earlier tr).2 := by
  induction hb : r.scanner.bound using Nat.strongRecOn generalizing earlier tr r s with
  | ind n ih =>
    obtain ⟨u, hu, rfl⟩ := h
    rw [run_eq policy earlier tr r] at hok ⊢
    rw [run_eq policy earlier tr { r with scanner := u }]
    dsimp only at hok ⊢
    cases hr : (tr.settle policy earlier).refused with
    | some p => simp [hr] at hok
    | none =>
      simp only [hr] at hok ⊢
      split at hok
      · next hd =>
        simp only [hd, ↓reduceIte, true_and]
        exact ⟨u, hu, rfl⟩
      · next hd =>
        simp only [hd, ↓reduceIte]
        split at hok
        · simp at hok
        · simp at hok
        · next segment t ht =>
          obtain ⟨v, hv, htv⟩ := hu.segment hρ ht
          simp only [hv]
          split at hok
          · simp at hok
          · next next hn =>
            have hdt : t.delimiters = r.scanner.delimiters := by
              rw [← r.scanner.segment_delimiters, ht]
            have hdv : v.delimiters = u.delimiters := by rw [← u.segment_delimiters, hv]
            obtain ⟨hreading, hrest⟩ := ih _ (hb ▸ Scanner.segment_lt ht)
              (r := { r with
                scanner := t
                envelope := some (tr.settle policy earlier).envelope
                recovered := r.recovered ++
                  (tr.settle policy earlier).offers.filterMap Offer.accepted? })
              (by simpa only [hdt, hdv] using hρ) ⟨v, htv, rfl⟩ hok rfl
            exact ⟨by rw [hreading], hrest⟩

theorem readHeader (he : m.Exchange m' values) (h : r.Renamed he.toRenaming s)
    (hx : r.standard = .x12) (hc : r.scanner.cursor.Holds (m.header values ++ rest))
    (hok : r.readHeader = (.ok header, r')) :
    ∃ header' s', s.readHeader = (.ok header', s') ∧
      Envelope.start .x12 header' = Envelope.start .x12 header ∧ r'.Renamed he.toRenaming s' ∧
      he.toRenaming.Carries r'.scanner.delimiters s'.scanner.delimiters := by
  obtain ⟨u, hu, rfl⟩ := h
  obtain ⟨cs, t, w, ht, hw, hcs, htw⟩ := hu.peek r.standard.previewLength
  obtain rfl := hcs.unique hc
  obtain ⟨preview, t', p, x, ht', hp, hr, -⟩ := readHeader_eq_ok hok
  obtain ⟨hpreview, rfl⟩ := Prod.mk.inj (ht.symm.trans ht')
  obtain rfl := Except.ok.inj hpreview
  rw [readHeader_of_preamble ht hp] at hok
  obtain ⟨hd, after, after', rfl, hp'⟩ : m.all.Nodup ∧ ∃ after after',
      p = m.preamble t.trims values after ∧ r.standard.preamble w.trims
        (((m.header values ++ rest).take r.standard.previewLength).map he.toRenaming.map) =
          .ok (m'.preamble t.trims values after') := by
    rw [hx] at hp ⊢
    rw [htw.trims]
    exact he.ofX12_map hp
  rw [readHeader_of_preamble (r := { r with scanner := u }) hw hp', hu.offset]
  obtain ⟨rfl, y, hr', hxy⟩ := readHeaderSegment_renamed htw hr m' after'
    (m'.preamble t.trims values after').delimiters
  have hrole (m : Marks) (start : Nat) :
      r.standard.role ((m.segment t.trims values).shift start).tag = .interchangeHeader := hx ▸ rfl
  simp only [hr, hr', hrole, ne_eq, not_true_eq_false, ↓reduceIte, Prod.mk.injEq, true_and]
    at hok ⊢
  subst hok
  refine ⟨_, _, ⟨rfl, rfl⟩, ?_, ⟨_, ?_, rfl⟩, ?_⟩
  · rw [Envelope.start_shift, Envelope.start_shift, Marks.start_segment he.separates]
  · exact ⟨hxy.cursor, hxy.trims, hxy.maxElementLength⟩
  · simp only [Standard.refine, hx, reduceCtorEq, false_and, ↓reduceIte]
    exact he.carries hd

/-- What is read of an interchange is read of the one that other marks delimit. -/
theorem parse (he : m.Exchange m' values) (h : r.Renamed he.toRenaming s)
    (hn : r.envelope = none) (hx : r.standard = .x12)
    (hc : r.scanner.cursor.Holds (m.header values ++ rest))
    (hok : (r.parse policy earlier).1.result = .ok c) :
    (s.parse policy earlier).1 = (r.parse policy earlier).1 ∧
      (r.parse policy earlier).2.Renamed he.toRenaming (s.parse policy earlier).2 := by
  have hs : s.standard = r.standard ∧ s.envelope = r.envelope := by
    obtain ⟨u, -, rfl⟩ := h
    exact ⟨rfl, rfl⟩
  simp only [Reader.parse, hn, hs.2] at hok ⊢
  split at hok
  · simp at hok
  · next header r' hr =>
    obtain ⟨header', s', hs', hstart, h', hρ⟩ := h.readHeader he hx hc hr
    have hrx : r'.standard = .x12 := (standard_of_readHeader hr).trans hx
    have hsx : s'.standard = .x12 := (standard_of_readHeader hs').trans (hs.1.trans hx)
    rw [hrx] at hok ⊢
    simp only [hs', hsx, hstart]
    exact h'.run hρ hok

end Renamed

end Reader

theorem Standard.detect_map {cs : List Char} {o : Option Standard} (h : detect cs = .ok o) :
    detect (cs.map ρ.map) = .ok o := by
  have hl (c : Char) (hc : Text.isAlphanumeric c = true) := ρ.alphanumeric c hc
  cases o with
  | none =>
    simp only [detect] at h
    split at h
    · rfl
    all_goals simp at h
  | some standard =>
    cases detect_eq_ok_iff.1 h with
    | x12 cs =>
      simp only [List.map_cons, hl 'I' (by decide), hl 'S' (by decide), hl 'A' (by decide)]
      rfl
    | advised cs =>
      simp only [List.map_cons, hl 'U' (by decide), hl 'N' (by decide), hl 'A' (by decide)]
      rfl
    | edifact cs =>
      simp only [List.map_cons, hl 'U' (by decide), hl 'N' (by decide), hl 'B' (by decide)]
      rfl
    | tradacoms cs =>
      simp only [List.map_cons, hl 'S' (by decide), hl 'T' (by decide), hl 'X' (by decide)]
      rfl

structure Remainder.Renamed (ρ : Renaming) (a b : Remainder) : Prop where
  holds : ∃ cs, a.Holds cs ∧ b.Holds (cs.map ρ.map) ∧ ∀ c ∈ cs, ρ.domain c
  offset : b.offset = a.offset

theorem Reader.Renamed.remainder {r s : Reader} (h : r.Renamed ρ s) :
    r.remainder.Renamed ρ s.remainder := by
  obtain ⟨u, hu, rfl⟩ := h
  obtain ⟨cs, ⟨rest, hr, hcs, -⟩, ⟨rest', hr', hcs', -⟩, hd⟩ := hu.cursor.holds
  exact ⟨⟨cs, ⟨rest, hr, hcs⟩, ⟨rest', hr', hcs'⟩, hd⟩, hu.cursor.offset⟩

namespace Remainder.Renamed

variable {a b : Remainder}

theorem scanner (delimiters : Delimiters) (limits : Limits) (h : a.Renamed ρ b) :
    (Scanner.ofRemainder delimiters limits a).Renamed ρ
      (Scanner.ofRemainder delimiters limits b) := by
  obtain ⟨⟨cs, ha, hb, hd⟩, ho⟩ := h
  refine ⟨⟨⟨cs, ?_, ?_, hd⟩, ho, rfl, ?_⟩, rfl, rfl⟩
  · exact Cursor.holds_ofRemainder ha limits.bufferCapacity
  · exact Cursor.holds_ofRemainder hb limits.bufferCapacity
  · simp [Scanner.ofRemainder, Cursor.ofRemainder]

theorem resume {o : Option Reader} (h : a.Renamed ρ b) (ha : Reader.resume options a = .ok o) :
    ∃ o', Reader.resume options b = .ok o' ∧ Option.Rel (Reader.Renamed ρ) o o' := by
  simp only [Reader.resume] at ha ⊢
  split at ha
  · simp at ha
  · next t ht =>
    obtain ⟨u, hu, -⟩ := (h.scanner _ _).skipBlank ht
    obtain rfl := Except.ok.inj ha
    simp only [hu]
    exact ⟨none, rfl, .none⟩
  · next t ht =>
    obtain ⟨u, hu, htu⟩ := (h.scanner _ _).skipBlank ht
    obtain ⟨cs, v, w, hv, hw, -, hvw⟩ := htu.peek Standard.quotedLength
    simp only [hv] at ha
    simp only [hu, hw]
    cases hd : Standard.detect (cs.take Standard.quotedLength) with
    | error e => simp [hd, Except.map] at ha
    | ok standard =>
      simp only [hd, Except.map, Except.ok.injEq] at ha
      simp only [Standard.detect_map hd, Except.map]
      subst ha
      cases standard with
      | none => exact ⟨_, rfl, .none⟩
      | some standard => exact ⟨_, rfl, .some ⟨w, hvw, rfl⟩⟩

end Remainder.Renamed

end Edi
