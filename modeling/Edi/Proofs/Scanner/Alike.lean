import Edi.Proofs.Scanner.Parallel
import Edi.Proofs.Token
import Edi.Proofs.Unread

namespace Edi

namespace Lockstep

variable {α β σ : Type} {agree : σ → σ → Prop} {x y : Except Error α × σ}

theorem of_zero {f : α → α} (hf : ∀ a, f a = a) (h : Lockstep (Error.shiftOr 0 f) agree x y) :
    Lockstep id agree x y := by
  obtain ⟨answer, s, s', hx, hy, ha⟩ := h
  exact ⟨answer, s, s', hx, hy.trans (by rw [Error.shiftOr_zero hf]; rfl), ha⟩

theorem bind (h : Lockstep id agree x y) (f : α → Except Error β) :
    Lockstep id agree (x.1.bind f, x.2) (y.1.bind f, y.2) := by
  obtain ⟨answer, s, s', rfl, rfl, ha⟩ := h
  exact .intro _ ha

theorem pair (h : Lockstep id agree x y) : x.1 = y.1 ∧ agree x.2 y.2 := by
  obtain ⟨answer, s, s', rfl, rfl, ha⟩ := h
  exact ⟨rfl, ha⟩

end Lockstep

namespace Scanner

/-- The scanners are the same, but that either may have more of what is still to come ahead. -/
def Alike (t u : Scanner) : Prop :=
  ∃ k, t.cursor.AgreeBy Source.Brings 0 k ∧ u = { t with cursor := k }

variable {t u : Scanner} {k : Cursor} {σ α : Type}

theorem next_alike (h : Lockstep (Error.shiftOr 0 id) (Cursor.AgreeBy Source.Brings 0)
    t.cursor.next k.next) :
    Lockstep (Error.shiftOr 0 id) Alike t.next { t with cursor := k }.next := by
  obtain ⟨answer, j, j', hj, hj', ha⟩ := h
  simp only [Scanner.next, hj, hj']
  rcases answer with e | _ | c
  all_goals exact .intro _ ⟨j', ha, rfl⟩

theorem Alike.next (h : t.Alike u) : Lockstep (Error.shiftOr 0 id) Alike t.next u.next := by
  obtain ⟨k, hk, rfl⟩ := h
  exact next_alike (hk.next Source.brings_forecast)

theorem Alike.back (h : t.Alike u) : Lockstep (Error.shiftOr 0 id) Alike t.back u.back := by
  obtain ⟨k, hk, rfl⟩ := h
  obtain ⟨answer, j, j', hj, hj', ha⟩ := hk.back
  simp only [Scanner.back, hj, hj', hk.last]
  cases answer with
  | error e => exact .intro _ ⟨j', ha, rfl⟩
  | ok o => cases t.cursor.last with
    | character => exact .intro _ ⟨j', ha, rfl⟩
    | _ => exact .intro _ ⟨j', ha, rfl⟩

theorem alike_parallel : Parallel 0 Alike where
  rules := by
    rintro t _ ⟨k, -, rfl⟩
    exact ⟨rfl, rfl, rfl⟩
  offset := by
    rintro t _ ⟨k, hk, rfl⟩
    exact hk.offset
  next h := h.next
  back h := h.back
  begin := by
    rintro t _ ⟨k, hk, rfl⟩
    exact ⟨k, hk, rfl⟩
  count := by
    rintro t _ ⟨k, hk, rfl⟩
    exact ⟨k, hk, rfl⟩

theorem Parallel.recognize_here {R : Scanner → Scanner → Prop} (hR : Parallel 0 R)
    (m : Recognizer σ α) (s : σ) (h : Lockstep (Error.shiftOr 0 id) R t.next u.next) :
    Lockstep id R (t.recognize m s) (u.recognize m s) := by
  apply Lockstep.of_zero (fun _ ↦ rfl)
  apply hR.recognize_of_next _ _ s h
  · exact fun _ _ _ _ _ ↦ (Verdict.shift_zero _).symm
  · exact fun _ _ ↦ (Verdict.shift_zero _).symm

theorem token_alike (hp : t.pendingEnd = none)
    (h : Lockstep (Error.shiftOr 0 id) (Cursor.AgreeBy Source.Brings 0) t.cursor.next k.next)
    (ho : k.offset = t.cursor.offset) :
    Lockstep id Alike t.token { t with cursor := k }.token := by
  have hn : Lockstep (Error.shiftOr 0 id) Alike { t with repeats := false }.next
      { t with cursor := k, repeats := false }.next := next_alike h
  have hr := alike_parallel.recognize_here
    (Occurrence.recognizer t.trims t.maxElementLength t.repeats) {} hn
  obtain ⟨answer, v, w, hv, hw, k', hk', rfl⟩ := hr
  have hko : k'.offset = v.cursor.offset := hk'.offset
  simp only [id, hp] at hv hw
  simp only [Scanner.token, hp, offset, ho, hv, hw]
  rcases answer with e | _ | r
  · exact .intro _ ⟨k', hk', rfl⟩
  · exact .intro _ ⟨k', hk', rfl⟩
  · exact .intro _ ⟨k', hk', by simp only [hko]⟩

theorem simpleValue_alike (h : Lockstep id Alike t.token u.token) :
    Lockstep id Alike t.simpleValue u.simpleValue := by
  rw [simpleValue_eq, simpleValue_eq]
  exact h.bind _

theorem compositeElement_alike (h : Lockstep id Alike t.token u.token) :
    Lockstep id Alike t.compositeElement u.compositeElement := by
  rw [compositeElement_eq, compositeElement_eq]
  exact h.bind _

theorem Alike.token (h : t.Alike u) : Lockstep id Alike t.token u.token := by
  obtain ⟨k, hk, rfl⟩ := h
  rcases Option.eq_none_or_eq_some t.pendingEnd with hp | ⟨span, hp⟩
  · exact token_alike hp (hk.next Source.brings_forecast) hk.offset
  · simp only [Scanner.token, hp]
    exact .intro _ ⟨k, hk, rfl⟩

theorem Alike.lookahead (n : Nat) (h : t.Alike u) :
    Lockstep id Alike (t.lookahead n) (u.lookahead n) := by
  obtain ⟨k, hk, rfl⟩ := h
  obtain ⟨answer, j, j', hj, hj', ha⟩ := (hk.peek Source.brings_forecast n).of_zero fun _ ↦ rfl
  simp only [Scanner.lookahead, Scanner.peek, hj, hj', id]
  cases answer with
  | error e => exact .intro _ ⟨j', ha, rfl⟩
  | ok cs => exact .intro _ ⟨j', ha, rfl⟩

end Scanner

end Edi
