import Edi.Proofs.Source

namespace Edi

open Text.Utf8

/-- The bytes that still come when at most `share` of them are asked for at once. A delivery of no
bytes is the end, whatever is behind it. -/
def Delivery.arriving (share : Nat) : List Delivery → List UInt8
  | [] => []
  | .interrupted :: ds => arriving share ds
  | .failure _ :: ds => arriving share ds
  | .bytes bs :: ds => if bs.take share = [] then [] else bs ++ arriving share ds

theorem Delivery.pull_arriving {share : Nat} {ds rest : List Delivery} {bs : List UInt8}
    (h : pull share ds = (.ok bs, rest)) :
    arriving share ds = if bs = [] then [] else bs ++ arriving share rest := by
  induction ds with
  | nil =>
    obtain ⟨hb, -⟩ := Prod.mk.inj h
    rw [← Except.ok.inj hb]
    rfl
  | cons d ds ih =>
    cases d with
    | interrupted => exact ih h
    | failure m => simp [pull] at h
    | bytes b =>
      obtain ⟨hb, rfl⟩ := Prod.mk.inj h
      obtain rfl := Except.ok.inj hb
      simp only [arriving]
      split
      · rfl
      · next hne =>
        have hb := List.take_append_drop share b
        cases hd : b.drop share with
        | nil =>
          rw [hd, List.append_nil] at hb
          rw [hb]
        | cons c left =>
          have hs : share ≠ 0 := by
            rintro rfl
            exact hne rfl
          have hl : (c :: left).take share ≠ [] := by simp [hs]
          rw [hd] at hb
          simp only [arriving, if_neg hl]
          rw [← List.append_assoc, hb]

theorem Delivery.pull_error_arriving {share : Nat} {ds rest : List Delivery} {e : Error}
    (h : pull share ds = (.error e, rest)) : arriving share rest = arriving share ds := by
  induction ds with
  | nil => simp [pull] at h
  | cons d ds ih =>
    cases d with
    | interrupted => exact ih h
    | failure m =>
      obtain ⟨-, rfl⟩ := Prod.mk.inj h
      rfl
    | bytes b => simp [pull] at h

theorem Delivery.pull_isOk {ds : List Delivery} (h : ∀ m, .failure m ∉ ds) (share : Nat) :
    ∃ bs rest, pull share ds = (.ok bs, rest) ∧ ∀ m, .failure m ∉ rest := by
  induction ds with
  | nil => exact ⟨[], [], rfl, h⟩
  | cons d ds ih =>
    have hds : ∀ m, .failure m ∉ ds := fun m hm ↦ h m (List.mem_cons_of_mem d hm)
    cases d with
    | interrupted => exact ih hds
    | failure m => exact absurd List.mem_cons_self (h m)
    | bytes bs =>
      refine ⟨bs.take share, _, rfl, ?_⟩
      split
      · exact hds
      · next left _ => simpa using hds

namespace ByteReader

variable {r : ByteReader} {max : Nat}

theorem read_isOk (h : ∀ m, .failure m ∉ r.deliveries) (max : Nat) :
    (r.read max).1.isOk ∧ ∀ m, .failure m ∉ (r.read max).2.deliveries := by
  fun_induction ByteReader.read max r with
  | case1 => exact ⟨rfl, h⟩
  | case2 => exact ⟨rfl, h⟩
  | case3 => exact ⟨rfl, h⟩
  | case4 => exact ⟨rfl, h⟩
  | case5 r hm d hd he e ds hp =>
    obtain ⟨bs, rest, hq, -⟩ := Delivery.pull_isOk h r.share
    rw [hp] at hq
    simp at hq
  | case6 r hm d hd he ds hp ih =>
    obtain ⟨bs, rest, hq, hr⟩ := Delivery.pull_isOk h r.share
    rw [hp] at hq
    exact ih ((Prod.mk.inj hq).2 ▸ hr)
  | case7 r hm d hd he b bs ds hp ih =>
    obtain ⟨_, rest, hq, hr⟩ := Delivery.pull_isOk h r.share
    rw [hp] at hq
    exact ih ((Prod.mk.inj hq).2 ▸ hr)

def coming (r : ByteReader) : List UInt8 :=
  r.pending ++ if r.ended then [] else Delivery.arriving r.share r.deliveries

def unread (r : ByteReader) : List Char := lossy r.coming

/-- A read takes the characters that come next, and some if there are any. One that fails takes
none. -/
theorem read_unread (hm : max ≠ 0) :
    match r.read max with
    | (.ok cs, r') => r.unread = cs ++ r'.unread ∧ (cs = [] → r.unread = [])
    | (.error _, r') => r'.unread = r.unread := by
  fun_induction ByteReader.read max r with
  | case1 => contradiction
  | case2 r hm d hd => exact ⟨lossy_decode max _ _, fun hn ↦ absurd hn hd⟩
  | case3 r hm d hd he hp => simp [unread, coming, he, hp]
  | case4 r hm d hd he hp =>
    have hn := next?_of_decode_nil hm (not_not.1 hd)
    simp [unread, coming, he, lossy_of_cut hn hp]
  | case5 r hm d hd he e ds hp =>
    simp only [unread, coming, he, Delivery.pull_error_arriving hp]
  | case6 r hm d hd he ds hp ih =>
    have hu : r.unread = unread { r with deliveries := ds, ended := true } := by
      simp [unread, coming, he, Delivery.pull_arriving hp]
    rw [hu]
    exact ih
  | case7 r hm d hd he b bs ds hp ih =>
    have hu : r.unread = unread { r with deliveries := ds, pending := r.pending ++ b :: bs } := by
      simp [unread, coming, he, Delivery.pull_arriving hp]
    rw [hu]
    exact ih

end ByteReader

namespace Source

variable {s s' : Source} {cs : List Char} {max : Nat}

def unread : Source → List Char
  | text cs => cs
  | bytes reader => reader.unread

theorem read_unread (hm : max ≠ 0) :
    match s.read max with
    | (.ok cs, s') => s.unread = cs ++ s'.unread ∧ (cs = [] → s.unread = [])
    | (.error _, s') => s'.unread = s.unread := by
  cases s with
  | text unread =>
    refine ⟨(List.take_append_drop max unread).symm, ?_⟩
    intro h
    exact (List.take_eq_nil_iff.1 h).resolve_left hm
  | bytes reader =>
    have hr := reader.read_unread hm
    simp only [Source.read]
    rcases hx : reader.read max with ⟨e | cs, r⟩ <;> rw [hx] at hr <;> exact hr

def Unfailing (s : Source) : Prop :=
  ∀ (amounts : List Nat) (max : Nat),
    ((amounts.foldl (fun s n ↦ (s.read n).2) s).read max).1.isOk

theorem Unfailing.read (h : s.Unfailing) (max : Nat) : (s.read max).2.Unfailing :=
  fun amounts n ↦ h (max :: amounts) n

theorem unfailing_bytes {reader : ByteReader} (h : ∀ m, .failure m ∉ reader.deliveries) :
    (bytes reader).Unfailing := by
  intro amounts max
  induction amounts generalizing reader with
  | nil => exact (ByteReader.read_isOk h max).1
  | cons n amounts ih => exact ih (ByteReader.read_isOk h n).2

/-- The source does not fail and brings these characters. -/
structure Brings (s : Source) (cs : List Char) : Prop where
  unfailing : s.Unfailing
  unread : s.unread = cs

theorem brings_forecast : Forecast Brings where
  read {s cs max} hm h := by
    obtain ⟨hf, rfl⟩ := h
    have hu := s.read_unread hm
    have hok := hf [] max
    have hf' := hf.read max
    rcases hx : s.read max with ⟨e | cs, s'⟩
    · simp [hx, Except.isOk, Except.toBool] at hok
    · rw [hx] at hu hf'
      obtain ⟨hc, hn⟩ := hu
      refine ⟨cs.length, ?_, ?_, ⟨hf', ?_⟩, ?_⟩
      · simp [hc]
      · simp [hc]
      · simp [hc]
      · exact fun hne hl ↦ hne (hn (List.length_eq_zero_iff.1 hl))

end Source

end Edi
