import Edi.Proofs.Text.Lossy
import Edi.Proofs.Unread

namespace Edi

open Text.Utf8

def Delivery.failing (share : Nat) : List Delivery → List Error
  | [] => []
  | .interrupted :: ds => failing share ds
  | .failure message :: ds => .io message :: failing share ds
  | .bytes bs :: ds => if bs.take share = [] then [] else failing share ds

theorem Delivery.pull_failing {share : Nat} {ds rest : List Delivery} {bs : List UInt8}
    (h : pull share ds = (.ok bs, rest)) :
    failing share ds = if bs = [] then [] else failing share rest := by
  induction ds with
  | nil =>
    obtain ⟨hb, -⟩ := Prod.mk.inj h
    rw [← Except.ok.inj hb]
    rfl
  | cons d ds ih =>
    cases d with
    | interrupted => exact ih h
    | failure m => simp [pull] at h
    | bytes b =>
      obtain ⟨hb, rfl⟩ := Prod.mk.inj h
      obtain rfl := Except.ok.inj hb
      simp only [failing]
      split
      · rfl
      · next hne =>
        have hs : share ≠ 0 := by
          rintro rfl
          exact hne rfl
        cases hd : b.drop share with
        | nil => rfl
        | cons c left => simp [failing, hs]

theorem Delivery.pull_error_failing {share : Nat} {ds rest : List Delivery} {e : Error}
    (h : pull share ds = (.error e, rest)) : failing share ds = e :: failing share rest := by
  induction ds with
  | nil => simp [pull] at h
  | cons d ds ih =>
    cases d with
    | interrupted => exact ih h
    | failure m =>
      obtain ⟨he, rfl⟩ := Prod.mk.inj h
      rw [← Except.error.inj he]
      rfl
    | bytes b => simp [pull] at h

namespace ByteReader

variable {r : ByteReader} {max : Nat} {maxes : List Nat}

def failing (r : ByteReader) : List Error :=
  if r.ended then [] else Delivery.failing r.share r.deliveries

theorem read_failing (hm : max ≠ 0) :
    match r.read max with
    | (.ok cs, r') => r.failing = r'.failing ∧ (cs = [] → r.failing = []) ∧ cs.length ≤ max
    | (.error e, r') => r.failing = e :: r'.failing := by
  fun_induction ByteReader.read max r with
  | case1 => contradiction
  | case2 r hm d hd => exact ⟨rfl, fun hn ↦ absurd hn hd, length_decode_le max r.pending⟩
  | case3 r hm d hd he hp => simp [failing, he]
  | case4 r hm d hd he hp =>
    exact ⟨rfl, fun hn ↦ absurd hn (List.cons_ne_nil _ _), Nat.one_le_iff_ne_zero.2 hm⟩
  | case5 r hm d hd he e ds hp => simp [failing, he, Delivery.pull_error_failing hp]
  | case6 r hm d hd he ds hp ih =>
    have hr : r.failing = failing { r with deliveries := ds, ended := true } := by
      simp [failing, he, Delivery.pull_failing hp]
    rw [hr]
    exact ih
  | case7 r hm d hd he b bs ds hp ih =>
    have hr : r.failing = failing { r with deliveries := ds, pending := r.pending ++ b :: bs } := by
      simp [failing, he, Delivery.pull_failing hp]
    rw [hr]
    exact ih

theorem read_cases (r : ByteReader) (hm : max ≠ 0) :
    (∃ cs, (r.read max).1 = .ok cs ∧ cs.length ≤ max ∧ r.unread = cs ++ (r.read max).2.unread ∧
        r.failing = (r.read max).2.failing ∧ (cs = [] → r.unread = [] ∧ r.failing = [])) ∨
      ∃ e, (r.read max).1 = .error e ∧ r.unread = (r.read max).2.unread ∧
        r.failing = e :: (r.read max).2.failing := by
  have hu := r.read_unread hm
  have hf := r.read_failing hm
  rcases hx : r.read max with ⟨e | cs, r'⟩ <;> rw [hx] at hu hf
  · exact .inr ⟨e, rfl, hu.symm, hf⟩
  · exact .inl ⟨cs, rfl, hf.2.2, hu.1, hf.1, fun hn ↦ ⟨hu.2 hn, hf.2.1 hn⟩⟩

/-- What reads answer, one after the other. Of the answers, `brought` are the characters and
`failed` the failures. -/
def answers (r : ByteReader) : List Nat → List (Except Error (List Char))
  | [] => []
  | max :: maxes => (r.read max).1 :: (r.read max).2.answers maxes

def brought (as : List (Except Error (List Char))) : List Char :=
  as.flatMap fun
    | .ok cs => cs
    | .error _ => []

def failed (as : List (Except Error (List Char))) : List Error :=
  as.filterMap fun
    | .ok _ => none
    | .error e => some e

theorem answers_length_le (h : 0 ∉ maxes) :
    List.Forall₂ (fun max a ↦ ∀ cs, a = .ok cs → cs.length ≤ max) maxes (r.answers maxes) := by
  induction maxes generalizing r with
  | nil => exact .nil
  | cons max maxes ih =>
    obtain ⟨hm, hms⟩ := List.ne_and_not_mem_of_not_mem_cons h
    refine .cons (fun cs hcs ↦ ?_) (ih hms)
    rcases r.read_cases hm.symm with ⟨ds, hx, hl, -⟩ | ⟨e, hx, -⟩ <;> rw [hx] at hcs
    · exact Except.ok.inj hcs ▸ hl
    · simp at hcs

theorem answers_split (h : 0 ∉ maxes) {before later : List (Except Error (List Char))}
    (ha : r.answers maxes = before ++ later) :
    ∃ r' maxes', 0 ∉ maxes' ∧ later = answers r' maxes' ∧ r.unread = brought before ++ r'.unread ∧
      r.failing = failed before ++ r'.failing := by
  induction before generalizing r maxes with
  | nil => exact ⟨r, maxes, h, ha.symm, rfl, rfl⟩
  | cons a before ih =>
    cases maxes with
    | nil => simp [answers] at ha
    | cons max maxes =>
      obtain ⟨hm, hms⟩ := List.ne_and_not_mem_of_not_mem_cons h
      obtain ⟨rfl, hrest⟩ := List.cons.inj ha
      obtain ⟨r', maxes', hms', hlater, hu', hf'⟩ := ih hms hrest
      refine ⟨r', maxes', hms', hlater, ?_⟩
      rcases r.read_cases hm.symm with ⟨cs, hx, -, hu, hf, -⟩ | ⟨e, hx, hu, hf⟩
      · rw [hu, hf, hu', hf', hx]
        simp [brought, failed]
      · rw [hu, hf, hu', hf', hx]
        simp [brought, failed]

theorem answers_finished (h : 0 ∉ maxes) (hu : r.unread = []) (hf : r.failing = []) :
    ∀ a ∈ r.answers maxes, a = .ok [] := by
  induction maxes generalizing r with
  | nil => simp [answers]
  | cons max maxes ih =>
    obtain ⟨hm, hms⟩ := List.ne_and_not_mem_of_not_mem_cons h
    rcases r.read_cases hm.symm with ⟨cs, hx, -, hu', hf', -⟩ | ⟨e, -, -, hf'⟩
    · obtain ⟨rfl, hr⟩ := List.append_eq_nil_iff.1 (hu'.symm.trans hu)
      exact List.forall_mem_cons.2 ⟨hx, ih hms hr (hf'.symm.trans hf)⟩
    · simp [hf] at hf'

theorem ok_nil_mem_answers (h : 0 ∉ maxes)
    (hl : r.unread.length + r.failing.length < maxes.length) : .ok [] ∈ r.answers maxes := by
  induction maxes generalizing r with
  | nil => simp at hl
  | cons max maxes ih =>
    obtain ⟨hm, hms⟩ := List.ne_and_not_mem_of_not_mem_cons h
    rw [List.length_cons] at hl
    rcases r.read_cases hm.symm with ⟨cs, hx, -, hu, hf, -⟩ | ⟨e, -, hu, hf⟩
    · cases cs with
      | nil => exact List.mem_cons.2 (.inl hx.symm)
      | cons c cs =>
        have hlen := congrArg List.length hu
        simp only [List.length_append, List.length_cons] at hlen
        exact List.mem_cons_of_mem _ (ih hms (by rw [← hf]; omega))
    · have hlen := congrArg List.length hf
      rw [List.length_cons] at hlen
      exact List.mem_cons_of_mem _ (ih hms (by rw [← hu]; omega))

end ByteReader

/-- Decoding piece by piece is decoding at once. However the bytes are cut and whatever reads fail,
there is one text that the bytes before the end stand for. The reads bring it in order, and no more
characters at once than were asked for; a failed read brings none and loses none. The first read
that finds the end has all of it behind it, and so have the reads after it, which find the end
again. -/
theorem ByteReader.answers_decoded (chunk : Nat) (step : Option Nat) (ds : List Delivery)
    {maxes : List Nat} (h : 0 ∉ maxes) :
    let r := ByteReader.ofDeliveries chunk step ds
    let failing := Delivery.failing r.share ds
    let as := r.answers maxes
    ∃ text, (∀ cs, Decoded (Delivery.arriving r.share ds) cs ↔ cs = text) ∧
      List.Forall₂ (fun max a ↦ ∀ cs, a = .ok cs → cs.length ≤ max) maxes as ∧
      (∀ before later, as = before ++ later →
        brought before <+: text ∧ failed before <+: failing ∧
          (later.head? = some (.ok []) →
            brought before = text ∧ failed before = failing ∧ ∀ a ∈ later, a = .ok [])) ∧
      (text.length + failing.length < maxes.length → .ok [] ∈ as) := by
  intro r failing as
  have hf : r.failing = failing := rfl
  refine ⟨r.unread, fun cs ↦ decoded_iff, answers_length_le h, fun before later hb ↦ ?_,
    ok_nil_mem_answers h⟩
  obtain ⟨r', maxes', hms, rfl, hu', hf'⟩ := answers_split h hb
  refine ⟨⟨_, hu'.symm⟩, ⟨_, hf'.symm⟩, fun hend ↦ ?_⟩
  cases maxes' with
  | nil => simp [answers] at hend
  | cons max maxes' =>
    have hnil := Option.some.inj hend
    rcases r'.read_cases (List.ne_of_not_mem_cons hms).symm with ⟨cs, hx, -, -, -, hn⟩ | ⟨e, hx, -⟩
    · obtain ⟨hn, hn'⟩ := hn (Except.ok.inj (hx.symm.trans hnil))
      exact ⟨by rw [hu', hn, List.append_nil], by rw [← hf, hf', hn', List.append_nil],
        answers_finished hms hn hn'⟩
    · simp [hx] at hnil

/-- An `É` that a read cuts and a failure interrupts, bytes of no character, and a beginning of one
that the end cuts off. -/
theorem ByteReader.answers_decoded_interrupted :
    let bytes : List UInt8 := [0x41, 0xC3, 0x89, 0xFF, 0xE2, 0x82, 0x42, 0xF0, 0x9F]
    let ds : List Delivery :=
      [.bytes [0x41, 0xC3], .interrupted, .failure "reset", .bytes [0x89, 0xFF, 0xE2],
        .bytes [0x82, 0x42, 0xF0, 0x9F], .bytes [], .bytes [0x43]]
    let as := (ByteReader.ofDeliveries 1 none ds).answers [2, 3, 1, 5, 2, 7, 1, 1]
    0 ∉ [2, 3, 1, 5, 2, 7, 1, 1] ∧
      as = [.ok ['A'], .error (.io "reset"), .ok ['É'], .ok ['\uFFFD'], .ok ['\uFFFD', 'B'],
        .ok ['\uFFFD'], .ok [], .ok []] ∧
      Decoded bytes ['A', 'É', '\uFFFD', '\uFFFD', 'B', '\uFFFD'] := by
  intro bytes ds as
  have h : 0 ∉ [2, 3, 1, 5, 2, 7, 1, 1] := by decide
  have has : as = [.ok ['A'], .error (.io "reset"), .ok ['É'], .ok ['\uFFFD'],
      .ok ['\uFFFD', 'B'], .ok ['\uFFFD'], .ok [], .ok []] := by decide +kernel
  obtain ⟨text, htext, -, hsplit, -⟩ := ByteReader.answers_decoded 1 none ds h
  obtain ⟨-, -, hend⟩ := hsplit (as.take 6) (as.drop 6) (List.take_append_drop 6 as).symm
  obtain ⟨hb, -, -⟩ := hend (by rw [has]; rfl)
  refine ⟨h, has, (htext _).2 ?_⟩
  rw [← hb, has]
  rfl

end Edi
