import Edi.Proofs.Policy

namespace Edi

variable {policy : Policy} {earlier : List Problem} {t : Transition}

def Transition.read (t : Transition) (result : Except Error Closing) : Reading Closing :=
  { emissions := t.announced.map .event ++ t.completed
    offers := t.problems.map (⟨·, true⟩)
    result }

namespace Reader

theorem run_of_accepts (h : policy.Accepts earlier t.problems) (r : Reader) :
    r.run policy earlier t =
      let r' := { r with envelope := some t.next, recovered := r.recovered ++ t.problems }
      let emissions := t.announced.map .event ++ t.completed
      let offers := t.problems.map (⟨·, true⟩)
      if t.next.phase = .done then
        ({ emissions, offers, result := .ok (t.next.closing none) }, r')
      else match r.scanner.segment with
        | (.error e, u) => ({ emissions, offers, result := .error e }, { r' with scanner := u })
        | (.ok none, u) =>
          ({ emissions, offers, result := .error (.unexpectedEnd u.offset t.next.missingTrailer) },
            { r' with scanner := u })
        | (.ok (some s), u) =>
          match t.next.step r.tables s with
          | .error e => ({ emissions, offers, result := .error e }, { r' with scanner := u })
          | .ok next =>
            let rest := { r' with scanner := u }.run policy (earlier ++ t.problems) next
            (rest.1.after emissions offers, rest.2) := by
  have hr := run_eq policy earlier t r
  simp only [Transition.settle_of_accepts h, Offer.filterMap_accepted?_accepted,
    Offer.map_problem_accepted] at hr
  exact hr

/-- What comes of a transition under a policy that always goes on: a reading of the segments of a
scanner, and the scanner after it. It ends with the interchange, where no segment can be read or is
left, or where one may not stand. -/
inductive LenientRun (tables : LoopTables) :
    Transition → Scanner → Reading Closing → Scanner → Prop
  | finished {t : Transition} {x : Scanner} (hd : t.next.phase = .done) :
      LenientRun tables t x (t.read (.ok (t.next.closing none))) x
  | failed {t : Transition} {x y : Scanner} {e : Error} (hd : t.next.phase ≠ .done)
      (hs : x.segment = (.error e, y)) : LenientRun tables t x (t.read (.error e)) y
  | ended {t : Transition} {x y : Scanner} (hd : t.next.phase ≠ .done)
      (hs : x.segment = (.ok none, y)) :
      LenientRun tables t x (t.read (.error (.unexpectedEnd y.offset t.next.missingTrailer))) y
  | turnedAway {t : Transition} {x y : Scanner} {s : Segment} {e : Error}
      (hd : t.next.phase ≠ .done) (hs : x.segment = (.ok (some s), y))
      (h : t.next.step tables s = .error e) : LenientRun tables t x (t.read (.error e)) y
  | step {t next : Transition} {x y z : Scanner} {s : Segment} {reading : Reading Closing}
      (hd : t.next.phase ≠ .done) (hs : x.segment = (.ok (some s), y))
      (h : t.next.step tables s = .ok next) (hrest : LenientRun tables next y reading z) :
      LenientRun tables t x
        (reading.after (t.announced.map .event ++ t.completed) (t.problems.map (⟨·, true⟩))) z

theorem run_lenient (earlier : List Problem) (t : Transition) (r : Reader) :
    LenientRun r.tables t r.scanner (r.run .lenient earlier t).1
      (r.run .lenient earlier t).2.scanner := by
  induction hb : r.scanner.bound using Nat.strongRecOn generalizing earlier t r with
  | ind n ih =>
    rw [run_of_accepts Policy.accepts_lenient]
    dsimp only
    split
    · exact .finished ‹_›
    · next hd =>
      split
      · exact .failed hd ‹_›
      · exact .ended hd ‹_›
      · next s u hs =>
        split
        · exact .turnedAway hd hs ‹_›
        · next next hn =>
          exact .step hd hs hn (ih _ (hb ▸ Scanner.segment_lt hs) (earlier ++ t.problems) next
            { r with
              scanner := u, envelope := some t.next, recovered := r.recovered ++ t.problems } rfl)

theorem run_begins (policy : Policy) (earlier : List Problem) (tr : Transition) (r : Reader) :
    (tr.settle policy earlier).offers <+: (r.run policy earlier tr).1.offers ∧
      (tr.settle policy earlier).emissions <+: (r.run policy earlier tr).1.emissions := by
  rw [run_eq]
  dsimp only
  repeat' split
  all_goals simp [Reading.after]

end Reader

end Edi
