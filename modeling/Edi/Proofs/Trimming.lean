import Edi.Proofs.Segment.Trimmed
import Edi.Proofs.Tiling

namespace Edi.Scanner

variable {trims : Bool} {t u : Scanner} {σ α : Type}

/-- The scanners are the same, but that the first never trims. -/
structure Retrimmed (trims : Bool) (t u : Scanner) : Prop where
  untrimmed : t.trims = false
  eq : u = { t with trims }

theorem Retrimmed.next (h : t.Retrimmed trims u) :
    Lockstep id (Retrimmed trims) t.next u.next := by
  obtain ⟨ht, rfl⟩ := h
  simp only [Scanner.next]
  rcases t.cursor.next with ⟨e | _ | c, k⟩
  all_goals exact .intro _ ⟨ht, rfl⟩

theorem Retrimmed.back (h : t.Retrimmed trims u) :
    Lockstep id (Retrimmed trims) t.back u.back := by
  obtain ⟨ht, rfl⟩ := h
  simp only [Scanner.back]
  rcases t.cursor.back with ⟨e | _, k⟩
  · exact .intro _ ⟨ht, rfl⟩
  · cases t.cursor.last
    all_goals exact .intro _ ⟨ht, rfl⟩

theorem Retrimmed.leave {g : α → α} (h : t.Retrimmed trims u) (answer : Except Error α) :
    Lockstep (Except.map g) (Retrimmed trims) (t.leave answer) (u.leave (answer.map g)) := by
  obtain ⟨result, v, w, hv, hw, h'⟩ := h.back
  simp only [Scanner.leave, hv, hw]
  cases result with
  | error e => exact .intro (Except.error e) h'
  | ok o => exact .intro _ h'

theorem Retrimmed.recognize {m m' : Recognizer σ α} {f : σ → σ} {g : α → α}
    (hm : ∀ s offset c k, m'.feed (f s) offset c k = (m.feed s offset c k).map f g)
    (hf : ∀ s offset, m'.finish (f s) offset = (m.finish s offset).map id g) (s : σ)
    (h : t.Retrimmed trims u) :
    Lockstep (Except.map g) (Retrimmed trims) (t.recognize m s) (u.recognize m' (f s)) := by
  have hv {v w : Scanner} (h : v.Retrimmed trims w) :
      w.offset = v.offset ∧ w.delimiters = v.delimiters := by
    obtain ⟨-, rfl⟩ := h
    exact ⟨rfl, rfl⟩
  rw [recognize_eq m' (f s) u]
  fun_induction Scanner.recognize m s t generalizing u with
  | case1 s t e v hn =>
    obtain ⟨w, hw, h'⟩ := h.next.follow hn
    simp only [hw]
    exact .intro _ h'
  | case2 s t v hn answer hd =>
    obtain ⟨w, hw, h'⟩ := h.next.follow hn
    simp only [hw, id, hf, hv h', hd, Verdict.map]
    exact .intro _ h'
  | case3 s t v hn answer hd =>
    obtain ⟨w, hw, h'⟩ := h.next.follow hn
    simp only [hw, id, hf, hv h', hd, Verdict.map]
    exact h'.leave _
  | case4 s t c v hn s' hd ih =>
    obtain ⟨w, hw, h'⟩ := h.next.follow hn
    simp only [hw, id, hm, hv h', hd, Verdict.map]
    rw [recognize_eq m' (f s') w]
    exact ih h'
  | case5 s t c v hn answer hd =>
    obtain ⟨w, hw, h'⟩ := h.next.follow hn
    simp only [hw, id, hm, hv h', hd, Verdict.map]
    exact .intro _ h'
  | case6 s t c v hn answer hd =>
    obtain ⟨w, hw, h'⟩ := h.next.follow hn
    simp only [hw, id, hm, hv h', hd, Verdict.map]
    exact h'.leave _

theorem Retrimmed.skipBlank (h : t.Retrimmed trims u) :
    Lockstep id (Retrimmed trims) t.skipBlank u.skipBlank := by
  have hid : (Except.map id : Except Error Bool → Except Error Bool) = id := by
    funext x
    cases x <;> rfl
  have hmap {τ : Type} (v : Verdict τ Bool) : v.map id id = v := by
    cases v <;> simp [Verdict.map, hid]
  rw [← hid]
  exact h.recognize (f := id) (fun _ _ _ _ ↦ (hmap _).symm) (fun _ _ ↦ (hmap _).symm) ()

theorem Retrimmed.segment (h : t.Retrimmed trims u) :
    Lockstep (Except.map (Option.map (Segment.trimmed trims))) (Retrimmed trims) t.segment
      u.segment := by
  obtain ⟨answer, t', u', ht, hu, h'⟩ := h.skipBlank
  simp only [Scanner.segment, ht, hu]
  rcases answer with e | _ | _
  · exact .intro (Except.error e) h'
  · exact .intro (Except.ok none) h'
  · obtain ⟨hn, rfl⟩ := h'
    have hb : Retrimmed trims { t' with segmentText := [], repeats := false, pendingEnd := none }
        { t' with trims, segmentText := [], repeats := false, pendingEnd := none } := ⟨hn, rfl⟩
    have hf := Segment.recognizer_feed_trimmed t'.delimiters trims t'.maxElementLength t'.offset
    have he := Segment.recognizer_finish_trimmed t'.delimiters trims t'.maxElementLength t'.offset
    rw [← hn] at hf he
    obtain ⟨result, v, w, hv, hw, hr⟩ := hb.recognize hf he (.tag [])
    simp only [Segment.Part.trimmed, offset] at hv hw
    simp only [id, offset, hv, hw]
    obtain ⟨hv', rfl⟩ := hr
    cases result with
    | error e => exact .intro (Except.error e) ⟨hv', rfl⟩
    | ok s => exact .intro (Except.ok (some s)) ⟨hv', rfl⟩

inductive TrimsTo : Except Error (Option Segment) → Except Error (Option Segment) → Prop
  | failed (e : Error) : TrimsTo (.error e) (.error e)
  | ended : TrimsTo (.ok none) (.ok none)
  | segment {s s' : Segment} (h : s.TrimsTo s') : TrimsTo (.ok (some s)) (.ok (some s'))

/-- Trimming only trims: with it or without it the same calls give the same segments but for the
padding of their values, fail with the same errors and come to an end together, and the scanners
after them are the same. -/
theorem calls_trimmed (t : Scanner) (n : Nat) :
    List.Forall₂ (fun x y ↦ TrimsTo x.1 y.1 ∧ y.2 = { x.2 with trims := true })
      ({ t with trims := false }.calls n) ({ t with trims := true }.calls n) := by
  suffices h : ∀ {t u : Scanner}, t.Retrimmed true u → List.Forall₂
      (fun x y ↦ TrimsTo x.1 y.1 ∧ y.2 = { x.2 with trims := true }) (t.calls n) (u.calls n) from
    h ⟨rfl, rfl⟩
  induction n with
  | zero => exact fun _ ↦ .nil
  | succ n ih =>
    intro t u h
    obtain ⟨answer, v, w, hv, hw, h'⟩ := h.segment
    simp only [calls, hv, hw]
    refine .cons ⟨?_, h'.eq⟩ (ih h')
    rcases answer with e | _ | s
    · exact .failed e
    · exact .ended
    · exact .segment s.trimmed_trimsTo

end Edi.Scanner
