import Edi.Proofs.Reader.Fault
import Edi.Proofs.Reader.Follow
import Edi.Proofs.Scanner.Agree

namespace Edi

variable {distance : Nat} {policy : Policy} {options : Options} {earlier earlier' : List Problem}

def Error.relocate (distance : Nat) (e : Error) : Error :=
  if e.countsFromHeader then e else e.shift distance

def Error.relocateOr {α β : Type} (distance : Nat) (f : α → β) :
    Except Error α → Except Error β
  | .ok a => .ok (f a)
  | .error e => .error (e.relocate distance)

/-- The reading of the same characters `distance` characters further on in the stream. -/
def Reading.relocate {α : Type} (distance : Nat) (x : Reading α) : Reading α :=
  { x with
    offers := x.offers.map (·.shift distance)
    result := Error.relocateOr distance id x.result }

theorem Error.relocate_of_shift {e : Error} (h : e.countsFromHeader = false) :
    e.relocate distance = e.shift distance := by
  simp [relocate, h]

theorem Preamble.Fault.relocate {standard : Standard} {preview : List Char} {e : Error}
    (h : Fault standard preview e) : e.relocate distance = e := by
  cases h with
  | short he => simp [Error.relocate, Error.countsFromHeader, he]
  | cutShort => rfl
  | flawed offset hm => simp [Error.relocate, Error.countsFromHeader, hm]
  | foreign found => rfl

namespace Reading

variable {α : Type} {x : Reading α}

theorem relocate_of_shift (h : ∀ e, x.result = .error e → e.countsFromHeader = false) :
    x.relocate distance = x.shift distance := by
  cases hx : x.result with
  | ok a => simp [relocate, shift, hx, Error.relocateOr, Error.shiftOr]
  | error e =>
    simp [relocate, shift, hx, Error.relocateOr, Error.shiftOr, Error.relocate_of_shift (h e hx)]

@[simp] theorem relocate_zero (x : Reading α) : x.relocate 0 = x := by
  obtain ⟨emissions, offers, e | a⟩ := x <;> simp [relocate, Error.relocateOr, Error.relocate]

end Reading

namespace Reader

/-- Two readers that go on alike, where all offsets of `s` are greater by the `distance`. -/
structure Agree (distance : Nat) (r s : Reader) : Prop where
  scanner : r.scanner.Agree distance s.scanner
  standard : s.standard = r.standard
  tables : s.tables = r.tables
  advised : s.advised = r.advised
  envelope : s.envelope = r.envelope

variable {r s : Reader} {t u : Scanner}

theorem readHeaderSegment_of_segment (standard : Standard) (start start' : Nat)
    (d d' : Delimiters)
    (h : Lockstep (Error.shiftOr distance (Option.map (·.shift distance))) (Scanner.Agree distance)
      t.segment u.segment) :
    Lockstep (Error.shiftOr distance (·.shift distance)) (Scanner.Agree distance)
      (readHeaderSegment standard start (.implied d) t)
      (readHeaderSegment standard start' (.implied d') u) := by
  obtain ⟨answer, t', u', ht, hu, h'⟩ := h
  simp only [readHeaderSegment, ht, hu]
  cases answer with
  | error e => exact .intro _ h'
  | ok o =>
    cases o with
    | none =>
      simp only [Error.shiftOr, Option.map_none, h'.offset]
      exact .intro _ h'
    | some s => exact .intro _ h'

theorem readHeaderSegment_agree (standard : Standard) (start : Nat) (p : Preamble)
    (h : t.Agree distance u) :
    Lockstep (Error.shiftOr distance (·.shift distance)) (Scanner.Agree distance)
      (readHeaderSegment standard start p t)
      (readHeaderSegment standard (start + distance) p u) := by
  cases p with
  | decoded d n header =>
    obtain ⟨answer, t', u', ht, hu, h'⟩ := h.passSegment n
    simp only [readHeaderSegment, ht, hu]
    cases answer with
    | error e => exact .intro _ h'
    | ok _ =>
      simp only [Error.shiftOr, ← Segment.shift_shift]
      exact .intro _ h'
  | advised d n =>
    obtain ⟨answer, t', u', ht, hu, h'⟩ := h.passSegment n
    simp only [readHeaderSegment, ht, hu]
    cases answer with
    | error e => exact .intro _ h'
    | ok _ => exact readHeaderSegment_of_segment standard start (start + distance) d d h'.segment
  | implied d => exact readHeaderSegment_of_segment standard start (start + distance) d d h.segment

theorem Agree.readHeader (hr : r.scanner.cursor.Readable) (h : r.Agree distance s) :
    Lockstep (Error.relocateOr distance (·.shift distance)) (Agree distance) r.readHeader
      s.readHeader := by
  obtain ⟨answer, v, w, hv, hw, hs⟩ := h.scanner.peek r.standard.previewLength
  rw [← h.standard] at hw
  rcases Scanner.peek_answered hr hv with ⟨message, rfl⟩ | ⟨preview, rfl, hvr, -⟩
  · simp only [Reader.readHeader, hv, hw, Error.shiftOr]
    exact .intro _ ⟨hs, h.standard, h.tables, h.advised, h.envelope⟩
  · have hpw : s.standard.preamble w.trims preview = r.standard.preamble v.trims preview := by
      rw [h.standard, hs.rules.trims]
    cases hp : r.standard.preamble v.trims preview with
    | error e =>
      rw [hp] at hpw
      have he : e.relocate distance = e := (Standard.preamble_eq_error hp).relocate
      refine ⟨.error e, { r with scanner := v }, { s with scanner := w }, ?_, ?_, hs, h.standard,
        h.tables, h.advised, h.envelope⟩
      · simp only [Reader.readHeader, hv, hp]
      · simp only [Reader.readHeader, hw, Error.shiftOr, id, hpw, Error.relocateOr, he]
    | ok p =>
      rw [hp] at hpw
      have hd : Scanner.Agree distance { v with delimiters := p.delimiters }
          { w with delimiters := p.delimiters } :=
        ⟨hs.cursor, rfl, hs.rules.trims, hs.rules.maxElementLength⟩
      obtain ⟨result, t', u', ht, hu, h'⟩ :=
        readHeaderSegment_agree r.standard r.scanner.offset p hd
      rw [readHeader_of_preamble hv hp, readHeader_of_preamble hw hpw, h.standard, h.advised,
        h.scanner.offset]
      have hdr : ({ v with delimiters := p.delimiters } : Scanner).cursor.Readable := hvr
      rcases readHeaderSegment_answered hdr ht with ⟨e, rfl, hf⟩ | ⟨header, rfl, -⟩
      · have he : e.relocate distance = e.shift distance :=
          Error.relocate_of_shift (Fault.countsFromHeader (r := { r with scanner := t' })
            (.scanner hf))
        simp only [ht, hu, Error.shiftOr, ← he]
        exact .intro _ ⟨h', rfl, h.tables, rfl, h.envelope⟩
      · simp only [ht, hu, Error.shiftOr, Segment.shift_tag]
        by_cases hrole : r.standard.role header.tag = .interchangeHeader
        · simp only [hrole, ne_eq, not_true_eq_false, ↓reduceIte]
          refine .intro _ ⟨⟨h'.cursor, ?_, h'.rules.trims, h'.rules.maxElementLength⟩, rfl,
            h.tables, rfl, h.envelope⟩
          rw [Standard.refine_shift]
        · simp only [hrole, ne_eq, not_false_eq_true, ↓reduceIte]
          exact .intro _ ⟨h', rfl, h.tables, rfl, h.envelope⟩

theorem Agree.run (hp : policy.Relocates distance earlier earlier') (tr : Transition)
    (h : r.Agree distance s) :
    Lockstep (Reading.shift distance) (Agree distance) (r.run policy earlier tr)
      (s.run policy earlier' (tr.shift distance)) := by
  induction hb : r.scanner.bound using Nat.strongRecOn generalizing earlier earlier' tr r s with
  | ind n ih =>
    rw [run_eq policy earlier tr r, run_eq policy earlier' (tr.shift distance) s,
      Transition.settle_shift hp]
    dsimp only
    cases hs : (tr.settle policy earlier).refused with
    | some p =>
      simp only [Settlement.shift, hs, Option.map_some]
      exact .intro _ ⟨h.scanner, h.standard, h.tables, h.advised, rfl⟩
    | none =>
      simp only [Settlement.shift, hs, Option.map_none]
      split
      · exact .intro _ ⟨h.scanner, h.standard, h.tables, h.advised, rfl⟩
      · obtain ⟨answer, v, w, hv, hw, hvw⟩ := h.scanner.segment
        simp only [hv, hw]
        cases answer with
        | error e => exact .intro _ ⟨hvw, h.standard, h.tables, h.advised, rfl⟩
        | ok o =>
          cases o with
          | none =>
            simp only [Error.shiftOr, Option.map_none, hvw.offset]
            exact .intro _ ⟨hvw, h.standard, h.tables, h.advised, rfl⟩
          | some segment =>
            simp only [Error.shiftOr, Option.map_some, h.tables, Envelope.step_shift]
            have hlt : v.bound < n := hb ▸ Scanner.segment_lt hv
            cases hn : (tr.settle policy earlier).envelope.step r.tables segment with
            | error e =>
              exact .intro _ ⟨hvw, h.standard, rfl, h.advised, rfl⟩
            | ok next =>
              have hpn := hp.append ((tr.settle policy earlier).offers.map (·.problem))
              simp only [List.map_map, Function.comp_def] at hpn
              have ha : Agree distance
                  { r with
                    scanner := v
                    envelope := some (tr.settle policy earlier).envelope
                    recovered := r.recovered ++
                      (tr.settle policy earlier).offers.filterMap Offer.accepted? }
                  { s with
                    scanner := w
                    tables := r.tables
                    envelope := some (tr.settle policy earlier).envelope
                    recovered := s.recovered ++ ((tr.settle policy earlier).offers.map
                      (·.shift distance)).filterMap Offer.accepted? } :=
                ⟨hvw, h.standard, rfl, h.advised, rfl⟩
              obtain ⟨reading, r', s', hx, hy, h'⟩ := ih _ hlt hpn next ha rfl
              simp only [List.map_map, Function.comp_def, Offer.shift_problem, hx, hy]
              refine ⟨_, _, _, rfl, ?_, h'⟩
              rw [Reading.shift_after]

theorem Agree.parse (hp : policy.Relocates distance earlier earlier') (he : r.envelope = none)
    (hr : r.scanner.cursor.Readable) (h : r.Agree distance s) :
    Lockstep (Reading.relocate distance) (Agree distance) (r.parse policy earlier)
      (s.parse policy earlier') := by
  have he' : s.envelope = none := h.envelope.trans he
  obtain ⟨answer, r₀, s₀, hx, hy, h₀⟩ := h.readHeader hr
  simp only [Reader.parse, he, he', hx, hy]
  rcases readHeader_answered hr hx with ⟨e, rfl, -⟩ | ⟨header, rfl, hr₀⟩
  · exact .intro _ h₀
  · simp only [Error.relocateOr, h₀.standard, Envelope.start_shift]
    obtain ⟨x, r', s', hr', hs', h'⟩ := h₀.run hp (Envelope.start r₀.standard header)
    have hf : ∀ e, x.result = .error e → e.countsFromHeader = false := by
      intro e hxe
      have hrun : (r₀.run policy earlier (Envelope.start r₀.standard header)).1.result =
          .error e := by
        rw [hr']
        exact hxe
      exact (run_fault _ (Envelope.start_settled _ _) hr₀ hrun).countsFromHeader
    rw [hr', hs', ← Reading.relocate_of_shift hf]
    exact .intro _ h'

end Reader

variable {stop : Nat} {a b : Remainder}

theorem Cursor.Follows.agree {k k' : Cursor} (h : k.Follows distance [] stop k') :
    k.Agree distance k' := by
  obtain ⟨⟨cs, hk, hk', -⟩, ho, hl, -, hb⟩ := h
  rw [List.append_nil] at hk'
  exact ⟨⟨cs, hk, hk'⟩, ho, hl, hb⟩

theorem Reader.Agree.remainder {r s : Reader} (h : r.Agree distance s) :
    ∃ stop, r.remainder.Follows distance [] stop s.remainder := by
  obtain ⟨cs, ⟨rest, hr, hc, -⟩, ⟨rest', hr', hc', -⟩⟩ := h.scanner.cursor.bears
  refine ⟨r.remainder.offset + cs.length, [], cs, by simp [Text.IsBlank], ⟨rest, hr, hc⟩,
    ⟨rest', hr', ?_⟩, h.scanner.cursor.offset, rfl⟩
  rwa [List.append_nil]

theorem Remainder.Agree.follows (h : a.Agree b) : ∃ stop, a.Follows 0 [] stop b := by
  obtain ⟨⟨cs, ha, hb⟩, ho⟩ := h
  refine ⟨a.offset + cs.length, [], cs, by simp [Text.IsBlank], ha, ?_, ho.symm, rfl⟩
  rwa [List.append_nil]

theorem Remainder.Follows.resume_agree (options : Options) (capacity : Nat) (retains : Bool)
    (h : a.Follows distance [] stop b) :
    let other := { options with bufferCapacity := capacity, retainsText := retains }
    (∃ found, Reader.resume options a = .error (.unsupportedDialect found) ∧
        Reader.resume other b = .error (.unsupportedDialect found)) ∨
      (Reader.resume options a = .ok none ∧ Reader.resume other b = .ok none) ∨
      ∃ r s, Reader.resume options a = .ok (some r) ∧ Reader.resume other b = .ok (some s) ∧
        r.Agree distance s := by
  intro other
  obtain ⟨bs, cs, hbs, ha, hb, ho, hs⟩ := h.holds
  rcases Text.isBlank_or_exists cs with hcs | ⟨bs', c, rest, rfl, hbs', hc⟩
  · have hall : Text.IsBlank (bs ++ (cs ++ [])) := by
      rw [List.append_nil]
      exact List.forall_mem_append.2 ⟨hbs, hcs⟩
    exact .inr (.inl ⟨Reader.resume_of_isBlank ha hcs, Reader.resume_of_isBlank hb hall⟩)
  · rw [List.append_assoc, List.cons_append, ← List.append_assoc] at hb
    have ho' : b.offset + (bs ++ bs').length = a.offset + bs'.length + distance := by
      rw [List.length_append]
      omega
    obtain ⟨t, u, ht, hu, hth, hf⟩ := Scanner.skipBlank_follows
      { field := '*', terminator := '~' } options.toLimits other.toLimits rfl rfl hbs'
      (List.forall_mem_append.2 ⟨hbs, hbs'⟩) hc ha hb ho' hs
    have htu : t.Agree distance u := ⟨hf.cursor.agree, hf.rules⟩
    obtain ⟨k, hk, -⟩ := hth.peek Source.holds_forecast Standard.quotedLength
    obtain ⟨answer, v, w, hv, hw, hvw⟩ := htu.peek Standard.quotedLength
    obtain rfl : answer = .ok ((c :: rest).take Standard.quotedLength) := by
      simp only [Scanner.peek, hk] at hv
      exact (congrArg Prod.fst hv).symm
    simp only [Error.shiftOr, id] at hw
    simp only [Reader.resume, ht, hu, hv, hw]
    rcases Standard.announcedBy_or_error c rest with ⟨standard, hbegins⟩ | ⟨found, hd⟩
    · have hd := Standard.detect_eq_ok_iff.2 ((Standard.announcedBy_take_iff _ _).2 hbegins)
      simp only [hd, Except.map, Option.map_some]
      exact .inr (.inr ⟨_, _, rfl, rfl, hvw, rfl, rfl, rfl, rfl⟩)
    · simp only [hd, Except.map]
      exact .inl ⟨found, rfl, rfl⟩

end Edi
