import Edi.Proofs.Conservation
import Edi.Proofs.Reader.Fault

namespace Edi

namespace Cursor

variable {k : Cursor} {text : List Char}

/-- After the end of input was read nothing is left to be read. -/
def Settled (k : Cursor) : Prop := k.last = .endOfInput → k.ahead = [] ∧ k.exhausted

theorem fill_of_exhausted (need : Nat) (h : k.exhausted) : k.fill need = (.ok (), k) := by
  rw [fill, dif_neg]
  exact fun hn ↦ hn.2 h

theorem Settled.fill (need : Nat) (h : k.Settled) : (k.fill need).2.Settled := by
  by_cases hx : k.exhausted
  · rwa [fill_of_exhausted need hx]
  · intro hl
    rw [fill_last] at hl
    exact absurd (h hl).2 hx

theorem settled_invariant : Invariant Settled := by
  constructor
  · intro k h
    have hf := h.fill 1
    simp only [next]
    split
    · next hk => rwa [hk] at hf
    · next j hk =>
      rw [hk] at hf
      split
      · exact LastRead.noConfusion
      · next ha =>
        split
        · exact hf
        · have hx : j.exhausted := exhausted_of_fill hk (by simp [ha])
          exact fun _ ↦ ⟨ha, hx⟩
  · intro k h
    simp only [back]
    split
    · exact h
    · exact h
    · exact LastRead.noConfusion
    · exact LastRead.noConfusion
  · intro k n h
    have hf := h.fill n
    simp only [peek]
    split <;> next hk => rwa [hk] at hf

theorem settled_ofRemainder (capacity : Nat) (rest : Remainder) :
    (ofRemainder capacity rest).Settled := LastRead.noConfusion

theorem source_of_exhausted (hs : k.ReadsText) (h : k.Within text) (hx : k.exhausted) :
    k.source = .text [] := by
  obtain ⟨unread, hu⟩ := hs
  obtain ⟨rest, hr, -, he⟩ := h.holds
  rw [hu] at hr
  obtain rfl : unread = rest := hr
  rw [hu, he hx]

end Cursor

namespace Reader

variable {policy : Policy} {earlier : List Problem} {r : Reader} {text : List Char} {offset : Nat}
  {expected : String}

theorem Reached.settled (h : Reached text r) : r.scanner.cursor.Settled := by
  have hp := Cursor.settled_invariant
  induction h with
  | opened options h => exact hp.resume (Cursor.settled_ofRemainder _ _) h
  | parsed policy earlier h ih => exact hp.parse policy earlier ih
  | resumed options h hr ih => exact hp.resume (Cursor.settled_ofRemainder _ _) hr

theorem readHeader_of_settled (h : r.scanner.cursor.Settled) (hr : ¬r.scanner.cursor.Readable) :
    r.readHeader.1 = .error (.missingHeader r.standard.headerTag "") := by
  obtain ⟨ha, hx⟩ := h (not_not.1 hr)
  have hk : r.scanner.peek r.standard.previewLength = (.ok [], r.scanner) := by
    simp [Scanner.peek, Cursor.peek, Cursor.fill_of_exhausted _ hx, ha]
  have hp : r.standard.preamble r.scanner.trims [] =
      .error (.missingHeader r.standard.headerTag "") := by
    cases r.standard <;> rfl
  simp only [readHeader, hk, hp]

theorem envelope_of_unexpectedEnd
    (h : (r.parse policy earlier).1.result = .error (.unexpectedEnd offset expected)) :
    r.envelope = none := by
  cases he : r.envelope with
  | none => rfl
  | some e => simp [parse, he] at h

/-- The reader stands before a header of which the preview shows the last field mark, but not what
comes after it, although there may be more text. -/
def BeforeCutHeader (text : List Char) (r : Reader) : Prop :=
  let window := (text.drop r.scanner.offset).take Preamble.x12Length
  r.standard = .x12 ∧ window.length = Preamble.x12Length ∧ Preamble.CutShort window

theorem Reached.peek (hr : Reached text r) (n : Nat) :
    ∃ t, r.scanner.peek n = (.ok ((text.drop r.scanner.offset).take n), t) := by
  obtain ⟨k, hk, -⟩ := hr.within.2.holds.peek Source.holds_forecast n
  exact ⟨{ r.scanner with cursor := k }, by simp only [Scanner.peek, hk]; rfl⟩

theorem Reached.unexpectedEnd (hr : Reached text r)
    (h : (r.parse policy earlier).1.result = .error (.unexpectedEnd offset expected)) :
    (r.parse policy earlier).2.scanner.cursor.exhausted ∨ r.BeforeCutHeader text := by
  have he := envelope_of_unexpectedEnd h
  by_cases hk : r.scanner.cursor.Readable
  · rcases parse_fault he hk h with ⟨preview, t, hp, hx, hf, hr'⟩ | hf
    · rw [hr']
      cases hf with
      | short _ hl => exact .inl (hx hl)
      | cutShort hs hc =>
        obtain ⟨u, hu⟩ := hr.peek r.standard.previewLength
        obtain rfl : (text.drop r.scanner.offset).take r.standard.previewLength = preview :=
          Except.ok.inj (congrArg Prod.fst (hu.symm.trans hp))
        rw [hs] at hx hc
        by_cases hl : ((text.drop r.scanner.offset).take Preamble.x12Length).length <
          Preamble.x12Length
        · exact .inl (hx hl)
        · refine .inr ⟨hs, ?_, hc⟩
          rw [List.length_take] at hl ⊢
          omega
    · exact .inl hf.exhausted
  · -- The reader was parsed before and came to the end of input, so that nothing is left.
    have hh := readHeader_of_settled hr.settled hk
    rcases hrh : r.readHeader with ⟨answer, r₀⟩
    rw [hrh] at hh
    obtain rfl : answer = _ := hh
    simp [parse, he, hrh] at h

/-- A header that is cut short by the preview is taken for one that the text cuts short. -/
theorem parse_of_cutHeader (hr : Reached text r) (he : r.envelope = none)
    (hc : r.BeforeCutHeader text) : (r.parse policy earlier).1.result =
      .error (.unexpectedEnd Preamble.x12Length "ISA segment terminator") := by
  obtain ⟨hs, hl, hc⟩ := hc
  obtain ⟨t, ht⟩ := hr.peek Preamble.x12Length
  have hp := hc.ofX12 t.trims
  rw [hl] at hp
  have hh : r.readHeader =
      (.error (.unexpectedEnd Preamble.x12Length "ISA segment terminator"),
        { r with scanner := t }) := by
    simp only [readHeader, hs, Standard.previewLength, ht, Standard.preamble, hp]
  rw [parse_of_readHeader_error policy earlier he hh]

end Reader

/-- Where reading a text fails because the text is over, it has been taken from the source to its
last character, and looking for an interchange never fails so. The one exception is a header that
the preview cuts short: there the end of the preview is taken for that of the text. -/
theorem unexpectedEnd_exhausts (text : List Char) :
    (∀ options rest offset expected,
      Reader.resume options rest ≠ .error (.unexpectedEnd offset expected)) ∧
    ∀ r, Reader.Reached text r → ∀ policy earlier,
      (∀ offset expected,
        (r.parse policy earlier).1.result = .error (.unexpectedEnd offset expected) →
        (r.parse policy earlier).2.remainder.source = .text [] ∨ r.BeforeCutHeader text) ∧
      (r.envelope = none → r.BeforeCutHeader text →
        (r.parse policy earlier).1.result =
          .error (.unexpectedEnd Preamble.x12Length "ISA segment terminator")) := by
  constructor
  · intro options rest offset expected h
    rcases Reader.resume_eq_error h with ⟨message, he⟩ | ⟨found, he⟩
    · simp at he
    · simp at he
  · intro r hr policy earlier
    constructor
    · intro offset expected h
      have hw := (hr.parsed policy earlier).within
      rcases hr.unexpectedEnd h with hx | hc
      · exact .inl (Cursor.source_of_exhausted hw.1 hw.2 hx)
      · exact .inr hc
    · exact fun he hc ↦ Reader.parse_of_cutHeader hr he hc

/-- The text ends in the middle of a segment. -/
theorem unexpectedEnd_exhausts_midway :
    let text := "UNB+UNOC:3+A+B+240101:1200+1'UNH+7+ORDERS".toList
    let r : Reader :=
      { standard := .edifact
        scanner := ((Scanner.ofRemainder { field := '*', terminator := '~' }
          { bufferCapacity := 16 } { source := .text text }).skipBlank.2.peek
            Standard.quotedLength).2
        tables := {} }
    Reader.Reached text r ∧
      (r.parse .lenient []).1.result = .error (.unexpectedEnd 41 "segment terminator") ∧
      (r.parse .lenient []).2.remainder.source = .text [] := by
  intro text r
  have hr : Reader.Reached text r :=
    .opened { bufferCapacity := 16 } (by decide +kernel)
  have he : (r.parse .lenient []).1.result = .error (.unexpectedEnd 41 "segment terminator") := by
    decide +kernel
  refine ⟨hr, he, ?_⟩
  obtain hs | ⟨hs, -⟩ := ((unexpectedEnd_exhausts text).2 r hr .lenient []).1 _ _ he
  · exact hs
  · exact absurd hs (by decide)

/-- The last field mark is the last character of the preview, and ten more characters come. -/
theorem unexpectedEnd_before_rest :
    let text := ['I', 'S', 'A'] ++ List.replicate 15 '*' ++ List.replicate 237 'A' ++
      "*:~IEA*0*1~".toList
    let r : Reader :=
      { standard := .x12
        scanner := ((Scanner.ofRemainder { field := '*', terminator := '~' }
          { bufferCapacity := 16 } { source := .text text }).skipBlank.2.peek
            Standard.quotedLength).2
        tables := {} }
    Reader.open? { bufferCapacity := 16 } (.text text) = .ok (some r) ∧
      (r.parse .lenient []).1.result =
        .error (.unexpectedEnd 256 "ISA segment terminator") ∧
      (r.parse .lenient []).2.remainder.source = .text ":~IEA*0*1~".toList := by
  decide +kernel

end Edi
