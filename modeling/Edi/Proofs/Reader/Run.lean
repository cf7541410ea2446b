import Edi.Proofs.Envelope.Standing
import Edi.Proofs.Policy
import Edi.Proofs.Reader.Header

namespace Edi

variable {P : List Emission → Envelope → Prop} {policy : Policy} {earlier : List Problem}
  {w : List Emission} {t : Transition}

/-- After the emissions `w` a transition comes to envelopes of which `P` holds, whether or not it
is halted. -/
structure Transition.Keeps (P : List Emission → Envelope → Prop) (w : List Emission)
    (t : Transition) : Prop where
  going : t.halted.phase ≠ .done
  halted : P (w ++ t.announced.map .event) t.halted
  next : P (w ++ (t.announced.map .event ++ t.completed)) t.next

theorem Transition.Keeps.settle (ht : t.Keeps P w) :
    P (w ++ (t.settle policy earlier).emissions) (t.settle policy earlier).envelope := by
  cases hr : (t.settle policy earlier).refused with
  | some p =>
    obtain ⟨he, hn⟩ := settle_refused hr
    rw [he, hn]
    exact ht.halted
  | none =>
    obtain ⟨he, hn⟩ := settle_passed hr
    rw [he, hn]
    exact ht.next

def Envelope.Stable (P : List Emission → Envelope → Prop) : Prop :=
  ∀ {tables : LoopTables} {s : Segment} {e : Envelope} {role : Role} {t : Transition}
    {w : List Emission}, P w e → e.phase ≠ .done → e.Passes tables s role t → t.Keeps P w

/-- A reading that has come to `e`, where `P` holds of it and of the emissions since before `w`. -/
def Reading.LeftAt (P : List Emission → Envelope → Prop) (w : List Emission) (e : Envelope)
    (x : Reading Closing) : Prop :=
  P (w ++ x.emissions) e ∧
    x.result.toOption = if e.phase = .done then some (e.closing none) else none

namespace Reader

/-- A run keeps what every segment keeps, however it ends. -/
theorem run_leftAt (hP : Envelope.Stable P) (policy : Policy) (earlier : List Problem)
    (t : Transition) (r : Reader) (ht : t.Keeps P w) : ∃ e,
      (r.run policy earlier t).2.envelope = some e ∧
        (r.run policy earlier t).1.LeftAt P w e := by
  fun_induction run policy earlier t r generalizing w with
  | case1 earlier t r s _ stop p =>
    obtain ⟨-, hn⟩ := Transition.settle_refused ‹s.refused = some p›
    have hp : s.envelope.phase ≠ .done := hn ▸ ht.going
    exact ⟨_, rfl, ht.settle, by rw [if_neg hp]; rfl⟩
  | case2 earlier t r s _ stop hr =>
    have hp : s.envelope.phase = .done := ‹_›
    exact ⟨_, rfl, ht.settle, by rw [if_pos hp]; rfl⟩
  | case3 earlier t r s _ stop hr hp | case4 earlier t r s _ stop hr hp
  | case5 earlier t r s _ stop hr hp =>
    exact ⟨_, rfl, ht.settle, by rw [if_neg hp]; rfl⟩
  | case6 earlier t r s r' hr hp segment u hu next hs rest =>
    rename_i ih
    obtain ⟨e, hre, hx, hres⟩ := ih (hP ht.settle hp (Envelope.step_eq_ok hs))
    refine ⟨e, hre, ?_, hres⟩
    rwa [List.append_assoc] at hx

theorem parse_leftAt (hP : Envelope.Stable P) (policy : Policy) (earlier : List Problem)
    {r : Reader} (hr : r.envelope = none)
    (hs : ∀ header, (Envelope.start r.standard header).Keeps P w) :
    ((r.parse policy earlier).2.envelope = none ∧ (r.parse policy earlier).1.emissions = [] ∧
        (r.parse policy earlier).1.result.toOption = none) ∨
      ∃ e, (r.parse policy earlier).2.envelope = some e ∧
        (r.parse policy earlier).1.LeftAt P w e := by
  simp only [parse, hr]
  split
  · next e u hh =>
    have hu : u.envelope = r.envelope := by rw [← readHeader_envelope r, hh]
    exact .inl ⟨hu.trans hr, rfl, rfl⟩
  · next header u hh =>
    refine .inr (run_leftAt hP policy earlier _ u ?_)
    rw [standard_of_readHeader hh]
    exact hs header

end Reader

end Edi
