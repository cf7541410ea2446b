import Edi.Proofs.Envelope.Preamble
import Edi.Proofs.Reader.Accepted
import Edi.Proofs.Reader.Header
import Edi.Proofs.Reader.Resume
import Edi.Proofs.Reader.Shift
import Edi.Proofs.Scanner.Follow

namespace Edi

/-- The text may end too soon to tell more than this. -/
inductive Error.Inconclusive : Error → Prop
  | unexpectedEnd (offset : Nat) (expected : String) : Inconclusive (unexpectedEnd offset expected)
  | unsupportedDialect (found : String) : Inconclusive (unsupportedDialect found)

/-- The reading `x` fails. The reading `y` hands out all that `x` does, and it fails too unless the
failure of `x` is only that its text ends. -/
def Reading.FailsAlike {α : Type} (distance : Nat) (x y : Reading α) : Prop :=
  ∃ e, x.result = .error e ∧ x.emissions <+: y.emissions ∧
    (e.Inconclusive ∨ ∃ e', y.result = .error e' ∧ (distance = 0 → e' = e))

variable {distance stop : Nat} {more : List Char} {policy : Policy} {options : Options}
  {earlier earlier' : List Problem} {standard : Standard}

theorem Standard.refine_bare (advised : Bool) (header : Segment) (d : Delimiters) :
    (standard.refine advised header d).bare = standard.refine advised header d.bare := by
  simp only [refine]
  split <;> rfl

theorem Standard.refine_shift (advised : Bool) (header : Segment) (d : Delimiters) :
    standard.refine advised (header.shift distance) d = standard.refine advised header d := by
  simp only [refine, Segment.component_shift]

namespace Reader

structure Follows (distance : Nat) (more : List Char) (stop : Nat) (r r' : Reader) : Prop where
  scanner : r.scanner.Follows distance more stop r'.scanner
  standard : r'.standard = r.standard
  tables : r'.tables = r.tables
  advised : r'.advised = r.advised
  envelope : r'.envelope = r.envelope

def AtBeginning (r : Reader) : Prop :=
  ∀ cs, r.scanner.cursor.Holds cs → r.standard.AnnouncedBy cs

variable {t u : Scanner} {r r' : Reader}

theorem readHeaderSegment_bare (start : Nat) (p : Preamble) (t : Scanner) :
    readHeaderSegment standard start p.bare t = readHeaderSegment standard start p t := by
  cases p <;> rfl

theorem readHeaderSegment_follows (standard : Standard) (start : Nat) (p : Preamble)
    (h : t.Follows distance more stop u) :
    (∃ answer t' u', readHeaderSegment standard start p t = (answer, t') ∧
      readHeaderSegment standard (start + distance) p u =
        (Error.shiftOr distance (·.shift distance) answer, u') ∧
      t'.Follows distance more stop u') ∨
    Scanner.BreaksOff (readHeaderSegment standard start p t) := by
  -- After a service string the header is read as where there is none.
  have hs {t u : Scanner} (h : t.Follows distance more stop u) :
      (∃ answer t' u', readHeaderSegment standard start (.implied p.delimiters) t = (answer, t') ∧
        readHeaderSegment standard (start + distance) (.implied p.delimiters) u =
          (Error.shiftOr distance (·.shift distance) answer, u') ∧
        t'.Follows distance more stop u') ∨
      Scanner.BreaksOff (readHeaderSegment standard start (.implied p.delimiters) t) := by
    simp only [readHeaderSegment]
    rcases h.segment with ⟨e | _ | s, t', u', ht, hu, h'⟩ | ⟨t', ht⟩ | ⟨offset, expected, t', ht⟩
    · simp only [ht, hu]
      exact .inl ⟨_, _, _, rfl, rfl, h'⟩
    · simp only [ht]
      exact .inr ⟨_, _, t', rfl⟩
    · simp only [ht, hu]
      exact .inl ⟨_, _, _, rfl, rfl, h'⟩
    · simp only [ht]
      exact .inr ⟨_, _, t', rfl⟩
    · simp only [ht]
      exact .inr ⟨offset, expected, t', rfl⟩
  cases p with
  | decoded d n header =>
    simp only [readHeaderSegment]
    rcases h.passSegment n with ⟨t', u', ht, hu, h'⟩ | ⟨offset, expected, t', ht⟩
    · simp only [ht, hu, ← Segment.shift_shift]
      exact .inl ⟨_, _, _, rfl, rfl, h'⟩
    · simp only [ht]
      exact .inr ⟨offset, expected, t', rfl⟩
  | advised d n =>
    rcases h.passSegment n with ⟨t', u', ht, hu, h'⟩ | ⟨offset, expected, t', ht⟩
    · simp only [readHeaderSegment, ht, hu]
      exact hs h'
    · simp only [readHeaderSegment, ht]
      exact .inr ⟨offset, expected, t', rfl⟩
  | implied d => exact hs h

theorem Follows.readHeader (h : r.Follows distance more stop r') (hb : r.AtBeginning) :
    (∃ header r₀ r₀', r.readHeader = (.ok header, r₀) ∧
      r'.readHeader = (.ok (header.shift distance), r₀') ∧ r₀.Follows distance more stop r₀') ∨
    ∃ e r₀, r.readHeader = (.error e, r₀) ∧
      (e.Inconclusive ∨ ∃ e' r₀', r'.readHeader = (.error e', r₀') ∧ (distance = 0 → e' = e)) := by
  obtain ⟨cs, t, u, ht, hu, hcs, -, hf⟩ := h.scanner.peek r.standard.previewLength
  rw [← h.standard] at hu
  rcases (hb cs hcs).preamble more t.trims with
    ⟨offset, expected, hp⟩ | ⟨e, hp, hp'⟩ | ⟨p, p', hp, hp', hpp⟩
  · refine .inr ⟨_, { r with scanner := t }, ?_, .inl (.unexpectedEnd offset expected)⟩
    simp only [Reader.readHeader, ht, hp]
  · rw [← hf.rules.trims, ← h.standard] at hp'
    refine .inr ⟨e, { r with scanner := t }, ?_,
      .inr ⟨e, { r' with scanner := u }, ?_, fun _ ↦ rfl⟩⟩
    · simp only [Reader.readHeader, ht, hp]
    · simp only [Reader.readHeader, hu, hp']
  · have hd : p'.delimiters.bare = p.delimiters.bare := by
      rw [← Preamble.bare_delimiters, hpp, Preamble.bare_delimiters]
    have ha : p'.isAdvised = p.isAdvised := by
      rw [← Preamble.bare_isAdvised, hpp, Preamble.bare_isAdvised]
    have hv : Scanner.Follows distance more stop { t with delimiters := p.delimiters }
        { u with delimiters := p'.delimiters } :=
      ⟨hf.cursor, hd, hf.rules.trims, hf.rules.maxElementLength⟩
    rw [← hf.rules.trims, ← h.standard] at hp'
    rw [readHeader_of_preamble ht hp, readHeader_of_preamble hu hp', h.standard, h.scanner.offset,
      ← readHeaderSegment_bare _ p', hpp, readHeaderSegment_bare, h.advised, ha]
    rcases readHeaderSegment_follows r.standard r.scanner.offset p hv with
      ⟨e | header, t', u', ht', hu', h'⟩ | ⟨offset, expected, t', ht'⟩
    · simp only [ht', hu', Error.shiftOr]
      refine .inr ⟨_, _, rfl, .inr ⟨_, _, rfl, ?_⟩⟩
      rintro rfl
      exact e.shift_zero
    · simp only [ht', hu', Error.shiftOr, Segment.shift_tag]
      by_cases hrole : r.standard.role header.tag = .interchangeHeader
      · simp only [hrole, ne_eq, not_true_eq_false, ↓reduceIte]
        refine .inl ⟨_, _, _, rfl, rfl, ⟨h'.cursor, ?_, h'.rules.trims, h'.rules.maxElementLength⟩,
          rfl, h.tables, rfl, h.envelope⟩
        simp only [Standard.refine_shift, Standard.refine_bare, hd]
      · simp only [hrole, ne_eq, not_false_eq_true, ↓reduceIte]
        exact .inr ⟨_, _, rfl, .inr ⟨_, _, rfl, fun _ ↦ rfl⟩⟩
    · simp only [ht']
      exact .inr ⟨_, _, rfl, .inl (.unexpectedEnd offset expected)⟩

/-- A run comes to the same end further on, or the text of the first run ends before. -/
theorem Follows.run (hp : policy.Relocates distance earlier earlier') (tr : Transition)
    (h : r.Follows distance more stop r') :
    let x := r.run policy earlier tr
    let y := r'.run policy earlier' (tr.shift distance)
    (y.1 = x.1.shift distance ∧ ((∃ c, x.1.result = .ok c) → x.2.Follows distance more stop y.2)) ∨
      (∃ offset expected, x.1.result = .error (.unexpectedEnd offset expected)) ∧
        x.1.emissions <+: y.1.emissions := by
  induction hb : r.scanner.bound using Nat.strongRecOn generalizing earlier earlier' tr r r' with
  | ind n ih =>
    have hbegins := (run_begins policy earlier' (tr.shift distance) r').2
    have hx := run_eq policy earlier tr r
    have hy := run_eq policy earlier' (tr.shift distance) r'
    rw [Transition.settle_shift hp] at hbegins hy
    dsimp only at hx hy ⊢
    cases hs : (tr.settle policy earlier).refused with
    | some p =>
      simp only [hs, Settlement.shift, Option.map_some] at hx hy
      rw [hx, hy]
      exact .inl ⟨rfl, by simp⟩
    | none =>
      simp only [hs, Settlement.shift, Option.map_none] at hx hy
      by_cases hd : (tr.settle policy earlier).envelope.phase = .done
      · simp only [hd, ↓reduceIte] at hx hy
        rw [hx, hy]
        exact .inl ⟨rfl, fun _ ↦ ⟨h.scanner, h.standard, h.tables, h.advised, rfl⟩⟩
      · simp only [hd, ↓reduceIte] at hx hy
        rcases h.scanner.segment with
          ⟨e | _ | s, t, u, ht, hu, hf⟩ | ⟨t, ht⟩ | ⟨offset, expected, t, ht⟩
        · simp only [ht] at hx
          simp only [hu, Error.shiftOr] at hy
          rw [hx, hy]
          exact .inl ⟨rfl, by simp⟩
        · simp only [ht] at hx
          rw [hx]
          exact .inr ⟨⟨_, _, rfl⟩, hbegins⟩
        · simp only [ht] at hx
          simp only [hu, Error.shiftOr, Option.map_some, h.tables, Envelope.step_shift] at hy
          cases hn : (tr.settle policy earlier).envelope.step r.tables s with
          | error e =>
            simp only [hn] at hx
            simp only [hn] at hy
            rw [hx, hy]
            exact .inl ⟨rfl, by simp⟩
          | ok next =>
            simp only [hn] at hx
            simp only [hn, List.map_map, Function.comp_def, Offer.shift_problem] at hy
            have hpn := hp.append ((tr.settle policy earlier).offers.map (·.problem))
            simp only [List.map_map, Function.comp_def] at hpn
            have hfn : Follows distance more stop
                { r with
                  scanner := t
                  envelope := some (tr.settle policy earlier).envelope
                  recovered := r.recovered ++
                    (tr.settle policy earlier).offers.filterMap Offer.accepted? }
                { r' with
                  scanner := u
                  tables := r.tables
                  envelope := some (tr.settle policy earlier).envelope
                  recovered := r'.recovered ++ ((tr.settle policy earlier).offers.map
                    (·.shift distance)).filterMap Offer.accepted? } :=
              ⟨hf, h.standard, rfl, h.advised, rfl⟩
            rw [hx, hy]
            rcases ih _ (hb ▸ Scanner.segment_lt ht) hpn next hfn rfl with
              ⟨hreading, hok⟩ | ⟨hend, hpre⟩
            · refine .inl ⟨?_, hok⟩
              rw [hreading, Reading.shift_after]
            · refine .inr ⟨hend, ?_⟩
              exact (List.prefix_append_right_inj _).2 hpre
        · simp only [ht] at hx
          rw [hx]
          exact .inr ⟨⟨_, _, rfl⟩, hbegins⟩
        · simp only [ht] at hx
          rw [hx]
          exact .inr ⟨⟨_, _, rfl⟩, hbegins⟩

theorem Follows.parse (hp : policy.Relocates distance earlier earlier')
    (he : r.envelope = none) (hb : r.AtBeginning) (h : r.Follows distance more stop r') :
    let x := r.parse policy earlier
    let y := r'.parse policy earlier'
    (y.1 = x.1.shift distance ∧ ((∃ c, x.1.result = .ok c) → x.2.Follows distance more stop y.2)) ∨
      x.1.FailsAlike distance y.1 := by
  have he' : r'.envelope = none := h.envelope.trans he
  simp only [Reader.parse, he, he']
  rcases h.readHeader hb with ⟨header, r₀, r₀', hr, hr', hf⟩ | ⟨e, r₀, hr, hor⟩
  · simp only [hr, hr', hf.standard, Envelope.start_shift]
    rcases hf.run hp (Envelope.start r₀.standard header) with hrun | ⟨⟨offset, expected, hx⟩, hpre⟩
    · exact .inl hrun
    · exact .inr ⟨_, hx, hpre, .inl (.unexpectedEnd offset expected)⟩
  · simp only [hr]
    refine .inr ⟨e, rfl, List.nil_prefix, ?_⟩
    rcases hor with hi | ⟨e', r₀', hr', hd⟩
    · exact .inl hi
    · simp only [hr']
      exact .inr ⟨e', rfl, hd⟩

end Reader

/-- The text of `a'` is that of `a`, after some blanks, and then `more`. All offsets in it are
greater by the `distance`; in the text of `a` the last one is `stop`. -/
structure Remainder.Follows (distance : Nat) (more : List Char) (stop : Nat) (a a' : Remainder) :
    Prop where
  holds : ∃ bs cs, Text.IsBlank bs ∧ a.Holds cs ∧ a'.Holds (bs ++ (cs ++ more)) ∧
    a'.offset + bs.length = a.offset + distance ∧ a.offset + cs.length = stop

theorem Reader.Follows.remainder {r r' : Reader} (h : r.Follows distance more stop r') :
    r.remainder.Follows distance more stop r'.remainder := by
  obtain ⟨cs, ⟨rest, hr, hc, -⟩, ⟨rest', hr', hc', -⟩, hs⟩ := h.scanner.cursor.holds
  exact ⟨[], cs, by simp [Text.IsBlank], ⟨rest, hr, hc⟩, ⟨rest', hr', hc'⟩,
    h.scanner.cursor.offset, hs⟩

theorem Reader.resume_of_isBlank {a : Remainder} {cs : List Char} (h : a.Holds cs)
    (hb : Text.IsBlank cs) : Reader.resume options a = .ok none := by
  have hk : (Scanner.ofRemainder { field := '*', terminator := '~' } options.toLimits
    a).cursor.Holds cs := Cursor.holds_ofRemainder h _
  obtain ⟨t, ht, -⟩ := Scanner.skipBlank_of_isBlank hb hk
    (by simp [Scanner.ofRemainder, Cursor.ofRemainder])
  simp only [resume, ht]

theorem Scanner.skipBlank_follows (delimiters : Delimiters) (limits limits' : Limits)
    (htrims : limits'.trims = limits.trims)
    (hmax : limits'.maxElementLength = limits.maxElementLength) {a a' : Remainder}
    {bs bs' rest : List Char} {c : Char} (hb : Text.IsBlank bs) (hb' : Text.IsBlank bs')
    (hc : Text.isBlankChar c = false) (h : a.Holds (bs ++ c :: rest))
    (h' : a'.Holds (bs' ++ c :: (rest ++ more)))
    (ho : a'.offset + bs'.length = a.offset + bs.length + distance)
    (hs : a.offset + (bs ++ c :: rest).length = stop) :
    ∃ t u, (ofRemainder delimiters limits a).skipBlank = (.ok true, t) ∧
      (ofRemainder delimiters limits' a').skipBlank = (.ok true, u) ∧
      t.cursor.Holds (c :: rest) ∧ t.Follows distance more stop u := by
  have hne (limits : Limits) (a : Remainder) :
      (ofRemainder delimiters limits a).cursor.last ≠ .endOfInput := by
    simp [ofRemainder, Cursor.ofRemainder]
  obtain ⟨t, ht, hth, hto, htl, htr⟩ :=
    skipBlank_of_not_isBlank hb hc (Cursor.holds_ofRemainder h _) (hne limits a)
  obtain ⟨u, hu, huh, huo, hul, hur⟩ :=
    skipBlank_of_not_isBlank hb' hc (Cursor.holds_ofRemainder h' _) (hne limits' a')
  have hto : t.cursor.offset = a.offset + bs.length := hto
  have huo : u.cursor.offset = a'.offset + bs'.length := huo
  refine ⟨t, u, ht, hu, hth, ⟨⟨c :: rest, hth, huh, ?_⟩, ?_, by rw [htl, hul], by simp [htl],
    by simp [htl]⟩, ?_⟩
  · rw [hto, Nat.add_assoc, ← List.length_append, hs]
  · rw [huo, ho, hto]
  · have hr : (ofRemainder delimiters limits a).SameRules (ofRemainder delimiters limits' a') :=
      ⟨rfl, htrims, hmax⟩
    exact (htr.symm.trans hr).trans hur

/-- The same interchange comes next, or none is recognized, or there is none before the text of `a`
ends. -/
theorem Remainder.Follows.resume (options : Options) {a a' : Remainder}
    (h : a.Follows distance more stop a') :
    (∃ r r', Reader.resume options a = .ok (some r) ∧ Reader.resume options a' = .ok (some r') ∧
      r.Follows distance more stop r' ∧ r.AtBeginning) ∨
    (∃ found, Reader.resume options a = .error (.unsupportedDialect found)) ∨
    (Reader.resume options a = .ok none ∧ ∃ bs, Text.IsBlank bs ∧ a'.Holds (bs ++ more) ∧
      a'.offset + bs.length = stop + distance) := by
  obtain ⟨bs, cs, hbs, ha, ha', ho, hs⟩ := h.holds
  rcases Text.isBlank_or_exists cs with hcs | ⟨b, c, rest, rfl, hb, hc⟩
  · refine .inr (.inr ⟨Reader.resume_of_isBlank ha hcs, bs ++ cs, ?_,
      by rwa [List.append_assoc], ?_⟩)
    · exact List.forall_mem_append.2 ⟨hbs, hcs⟩
    · rw [List.length_append]
      omega
  · rw [List.append_assoc, List.cons_append, ← List.append_assoc] at ha'
    have ho' : a'.offset + (bs ++ b).length = a.offset + b.length + distance := by
      rw [List.length_append]
      omega
    obtain ⟨t, u, ht, hu, hth, hf⟩ := Scanner.skipBlank_follows
      { field := '*', terminator := '~' } options.toLimits options.toLimits rfl rfl hb
      (List.forall_mem_append.2 ⟨hbs, hb⟩) hc ha ha' ho' hs
    obtain ⟨cs, v, w, hv, hw, hcs, hvh, hf⟩ := hf.peek Standard.quotedLength
    simp only [Reader.resume, ht, hu, hv, hw]
    obtain rfl := hcs.unique hth
    rcases Standard.announcedBy_or_error c rest with ⟨standard, hbegins⟩ | ⟨found, hd⟩
    · have hd := Standard.detect_eq_ok_iff.2 ((Standard.announcedBy_take_iff _ _).2 hbegins)
      have hd' := Standard.detect_eq_ok_iff.2
        ((Standard.announcedBy_take_iff _ _).2 (hbegins.append more))
      left
      simp only [hd, hd', Except.map, Option.map_some]
      refine ⟨_, _, rfl, rfl, ⟨hf, rfl, rfl, rfl, rfl⟩, fun cs hcs ↦ ?_⟩
      exact hvh.unique hcs ▸ hbegins
    · simp only [hd, Except.map]
      exact .inr (.inl ⟨found, rfl⟩)

end Edi
