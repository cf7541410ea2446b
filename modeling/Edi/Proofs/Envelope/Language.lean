import Edi.Proofs.Envelope.Standing
import Edi.Proofs.Language

namespace Edi

open scoped Computability

structure EnvelopeTags where
  interchangeHeaders : List String
  interchangeTrailer : String
  groupHeader : String
  groupTrailer : String
  documentHeader : String
  documentTrailer : String

namespace EnvelopeTags

def word (tag : String) : Language String := {[tag]}

def data (tags : EnvelopeTags) : Language String :=
  {w | ∃ tag, w = [tag] ∧ tag ∉ tags.interchangeTrailer :: tags.groupHeader ::
    tags.groupTrailer :: tags.documentHeader :: tags.documentTrailer :: tags.interchangeHeaders}

def document (tags : EnvelopeTags) : Language String :=
  word tags.documentHeader * tags.data∗ * word tags.documentTrailer

def group (tags : EnvelopeTags) : Language String :=
  word tags.groupHeader * tags.document∗ * word tags.groupTrailer

def emptyGroup (tags : EnvelopeTags) : Language String :=
  word tags.groupHeader * word tags.groupTrailer

end EnvelopeTags

namespace Standard

open EnvelopeTags (word)

def envelopeTags : Standard → EnvelopeTags
  | x12 => ⟨["ISA"], "IEA", "GS", "GE", "ST", "SE"⟩
  | edifact => ⟨["UNA", "UNB"], "UNZ", "UNG", "UNE", "UNH", "UNT"⟩
  | tradacoms => ⟨["STX"], "END", "BAT", "EOB", "MHD", "MTR"⟩

/-- The tags that follow the header of an interchange, through its trailer. -/
def envelopeLanguage (standard : Standard) : Language String :=
  let tags := standard.envelopeTags
  let trailer := word tags.interchangeTrailer
  if standard.requiresGroups then (word "TA1" + tags.group)∗ * trailer
  else (tags.emptyGroup∗ * tags.document∗ + tags.group∗) * trailer

section

variable {standard : Standard} {tag : String}

def tagsOf (standard : Standard) : Role → List String
  | .interchangeHeader => standard.envelopeTags.interchangeHeaders
  | .interchangeTrailer => [standard.envelopeTags.interchangeTrailer]
  | .groupHeader => [standard.envelopeTags.groupHeader]
  | .groupTrailer => [standard.envelopeTags.groupTrailer]
  | .documentHeader => [standard.envelopeTags.documentHeader]
  | .documentTrailer => [standard.envelopeTags.documentTrailer]
  | .interchangeData => if standard.requiresGroups then ["TA1"] else []
  | .data => []

theorem mem_tagsOf_role (h : standard.role tag ≠ .data) :
    tag ∈ standard.tagsOf (standard.role tag) := by
  revert h
  simp only [role]
  split <;> simp [tagsOf, envelopeTags, requiresGroups]

theorem role_of_mem_tagsOf {r : Role} (h : tag ∈ standard.tagsOf r) : standard.role tag = r := by
  have hd : ∀ tag ∈ standard.tagsOf r, standard.role tag = r := by
    cases standard <;> cases r <;> decide
  exact hd tag h

theorem role_eq_iff {r : Role} (h : r ≠ .data) :
    standard.role tag = r ↔ tag ∈ standard.tagsOf r :=
  ⟨fun hr ↦ hr ▸ mem_tagsOf_role (hr ▸ h), role_of_mem_tagsOf⟩

theorem role_eq_interchangeTrailer : standard.role tag = .interchangeTrailer ↔
    tag = standard.envelopeTags.interchangeTrailer :=
  (role_eq_iff (by decide)).trans List.mem_singleton

theorem role_eq_groupHeader : standard.role tag = .groupHeader ↔
    tag = standard.envelopeTags.groupHeader :=
  (role_eq_iff (by decide)).trans List.mem_singleton

theorem role_eq_groupTrailer : standard.role tag = .groupTrailer ↔
    tag = standard.envelopeTags.groupTrailer :=
  (role_eq_iff (by decide)).trans List.mem_singleton

theorem role_eq_documentHeader : standard.role tag = .documentHeader ↔
    tag = standard.envelopeTags.documentHeader :=
  (role_eq_iff (by decide)).trans List.mem_singleton

theorem role_eq_documentTrailer : standard.role tag = .documentTrailer ↔
    tag = standard.envelopeTags.documentTrailer :=
  (role_eq_iff (by decide)).trans List.mem_singleton

theorem role_eq_interchangeHeader : standard.role tag = .interchangeHeader ↔
    tag ∈ standard.envelopeTags.interchangeHeaders := role_eq_iff (by decide)

theorem role_eq_interchangeData : standard.role tag = .interchangeData ↔
    standard.requiresGroups ∧ tag = "TA1" := by
  rw [role_eq_iff (by decide), tagsOf]
  split <;> simp_all

end

end Standard

namespace EnvelopeTags

variable {tags : EnvelopeTags} {tag : String} {w : List String} {l : Language String}

theorem cons_mem_word_mul {a : String} : tag :: w ∈ word a * l ↔ tag = a ∧ w ∈ l := by
  constructor
  · intro hm
    obtain ⟨u, rfl, v, hv, h⟩ := hm
    obtain ⟨rfl, rfl⟩ := List.cons.inj h
    exact ⟨rfl, hv⟩
  · intro hm
    obtain ⟨rfl, hw⟩ := hm
    exact ⟨[tag], rfl, w, hw, rfl⟩

theorem cons_mem_word {a : String} : tag :: w ∈ word a ↔ tag = a ∧ w = [] := by
  rw [← mul_one (word a), cons_mem_word_mul, Language.mem_one]

theorem document_mul (l : Language String) : tags.document * l =
    word tags.documentHeader * (tags.data∗ * (word tags.documentTrailer * l)) := by
  simp only [document, mul_assoc]

theorem group_mul (l : Language String) : tags.group * l =
    word tags.groupHeader * (tags.document∗ * (word tags.groupTrailer * l)) := by
  simp only [group, mul_assoc]

end EnvelopeTags

namespace Standard

open EnvelopeTags (word)

variable {standard : Standard} {tag : String} {w : List String} {l : Language String}

theorem cons_mem_data_mul : tag :: w ∈ standard.envelopeTags.data * l ↔
    (standard.role tag = .data ∨ standard.role tag = .interchangeData) ∧ w ∈ l := by
  have hd : tag ∉ standard.envelopeTags.interchangeTrailer :: standard.envelopeTags.groupHeader ::
      standard.envelopeTags.groupTrailer :: standard.envelopeTags.documentHeader ::
      standard.envelopeTags.documentTrailer :: standard.envelopeTags.interchangeHeaders ↔
      standard.role tag = .data ∨ standard.role tag = .interchangeData := by
    simp only [List.mem_cons, ← role_eq_interchangeTrailer, ← role_eq_groupHeader,
      ← role_eq_groupTrailer, ← role_eq_documentHeader, ← role_eq_documentTrailer,
      ← role_eq_interchangeHeader]
    cases standard.role tag <;> simp
  constructor
  · intro hm
    obtain ⟨u, ⟨a, rfl, ha⟩, v, hv, h⟩ := hm
    obtain ⟨rfl, rfl⟩ := List.cons.inj h
    exact ⟨hd.1 ha, hv⟩
  · intro hm
    obtain ⟨hr, hw⟩ := hm
    exact ⟨[tag], ⟨tag, rfl, hd.2 hr⟩, w, hw, rfl⟩

def restOutside (standard : Standard) : Grouping → Language String
  | .undecided => standard.envelopeLanguage
  | .grouped =>
    if standard.requiresGroups then standard.envelopeLanguage
    else standard.envelopeTags.group∗ * word standard.envelopeTags.interchangeTrailer
  | .ungrouped => standard.envelopeTags.document∗ * word standard.envelopeTags.interchangeTrailer

def restInGroup (standard : Standard) (filled : Bool) : Language String :=
  let tags := standard.envelopeTags
  let filling := tags.document∗ * (word tags.groupTrailer * standard.restOutside .grouped)
  if filled ∨ standard.requiresGroups then filling
  else word tags.groupTrailer * (tags.emptyGroup∗ * standard.restOutside .ungrouped) + filling

end Standard

namespace Standing

open EnvelopeTags (word)

variable {standard : Standard} {q : Standing} {tag : String} {w : List String}

def rest (standard : Standard) : Standing → Language String
  | outside grouping => standard.restOutside grouping
  | group filled => standard.restInGroup filled
  | document grouped =>
    standard.envelopeTags.data∗ * (word standard.envelopeTags.documentTrailer *
      if grouped then standard.restInGroup true else standard.restOutside .ungrouped)
  | finished => 1

/-- An interchange that requires groups has no documents outside of them. -/
def Fits (standard : Standard) (q : Standing) : Prop :=
  standard.requiresGroups → q ≠ outside .ungrouped ∧ q ≠ document false

end Standing

namespace Standard
open EnvelopeTags (word)

variable {standard : Standard}

theorem restOutside_ungrouped_eq (standard : Standard) : standard.restOutside .ungrouped =
    word standard.envelopeTags.interchangeTrailer +
      word standard.envelopeTags.documentHeader * (Standing.document false).rest standard := by
  simp only [restOutside, Standing.rest, Bool.false_eq_true, ↓reduceIte]
  rw [← EnvelopeTags.document_mul]
  exact kstar_mul_eq _ _

theorem restOutside_eq_of_requiresGroups (h : standard.requiresGroups) {g : Grouping}
    (hg : g ≠ .ungrouped) :
    standard.restOutside g = word standard.envelopeTags.interchangeTrailer +
      (word "TA1" * standard.restOutside g +
        word standard.envelopeTags.groupHeader * standard.restInGroup true) := by
  have he : standard.restOutside g = standard.envelopeLanguage := by
    cases g with
    | undecided => rfl
    | grouped => simp [restOutside, h]
    | ungrouped => contradiction
  have hl : standard.restInGroup true = standard.envelopeTags.document∗ *
      (word standard.envelopeTags.groupTrailer * standard.envelopeLanguage) := by
    simp [restInGroup, restOutside, h]
  rw [he, hl, ← EnvelopeTags.group_mul, ← add_mul]
  simp only [envelopeLanguage, h, ↓reduceIte]
  exact kstar_mul_eq _ _

theorem restOutside_grouped_eq (h : standard.requiresGroups = false) :
    standard.restOutside .grouped = word standard.envelopeTags.interchangeTrailer +
      word standard.envelopeTags.groupHeader * standard.restInGroup true := by
  simp only [restInGroup, true_or, ↓reduceIte]
  rw [← EnvelopeTags.group_mul]
  simp only [restOutside, h, Bool.false_eq_true, ↓reduceIte]
  exact kstar_mul_eq _ _

theorem restOutside_undecided_eq (h : standard.requiresGroups = false) :
    standard.restOutside .undecided = word standard.envelopeTags.interchangeTrailer +
      (word standard.envelopeTags.groupHeader * standard.restInGroup false +
        word standard.envelopeTags.documentHeader * (Standing.document false).rest standard) := by
  have hl : standard.restOutside .undecided = standard.envelopeTags.emptyGroup∗ *
      standard.restOutside .ungrouped + standard.restOutside .grouped := by
    simp only [restOutside, envelopeLanguage, h, Bool.false_eq_true, ↓reduceIte, add_mul, mul_assoc]
  have hn : standard.restInGroup false = word standard.envelopeTags.groupTrailer *
      (standard.envelopeTags.emptyGroup∗ * standard.restOutside .ungrouped) +
      standard.restInGroup true := by
    simp only [restInGroup, h, Bool.false_eq_true, or_self, true_or, ↓reduceIte]
  rw [hl, hn, restOutside_grouped_eq h]
  exact kstar_mul_add_eq _ _ _ _ _ _ standard.restOutside_ungrouped_eq

theorem restInGroup_eq_of_requiresGroups (h : standard.requiresGroups) (filled : Bool) :
    standard.restInGroup filled = standard.restInGroup true := by
  simp only [restInGroup, h, or_true, ↓reduceIte]

theorem restInGroup_eq (filled : Bool) : standard.restInGroup filled =
    word standard.envelopeTags.groupTrailer *
        standard.restOutside (if filled then .grouped else .undecided) +
      word standard.envelopeTags.documentHeader * (Standing.document true).rest standard := by
  have ht : standard.restInGroup true =
      word standard.envelopeTags.groupTrailer * standard.restOutside .grouped +
        word standard.envelopeTags.documentHeader * (Standing.document true).rest standard := by
    simp only [Standing.rest, ↓reduceIte]
    rw [← EnvelopeTags.document_mul]
    simp only [restInGroup, true_or, ↓reduceIte]
    exact kstar_mul_eq _ _
  cases filled with
  | true => exact ht
  | false =>
    cases hr : standard.requiresGroups with
    | true =>
      rw [restInGroup_eq_of_requiresGroups hr, ht]
      simp only [restOutside, hr, Bool.false_eq_true, ↓reduceIte]
    | false =>
      have hn : standard.restInGroup false = word standard.envelopeTags.groupTrailer *
          (standard.envelopeTags.emptyGroup∗ * standard.restOutside .ungrouped) +
          standard.restInGroup true := by
        simp only [restInGroup, hr, Bool.false_eq_true, or_self, true_or, ↓reduceIte]
      rw [hn, ht, ← add_assoc, ← mul_add]
      simp only [restOutside, envelopeLanguage, hr, Bool.false_eq_true, ↓reduceIte, add_mul,
        mul_assoc]

end Standard

namespace Standing

open EnvelopeTags (word cons_mem_word cons_mem_word_mul)
open Standard

variable {standard : Standard} {q : Standing} {tag : String} {w : List String}

theorem cons_mem_rest_document (grouped : Bool) :
    tag :: w ∈ (document grouped).rest standard ↔
      ∃ q', (document grouped).next standard (standard.role tag) = some q' ∧
        w ∈ q'.rest standard := by
  have he : (document grouped).rest standard = word standard.envelopeTags.documentTrailer *
      (if grouped then standard.restInGroup true else standard.restOutside .ungrouped) +
      standard.envelopeTags.data * (document grouped).rest standard := kstar_mul_eq _ _
  rw [he, Language.mem_add, cons_mem_word_mul, cons_mem_data_mul, ← role_eq_documentTrailer]
  cases standard.role tag <;> cases grouped <;> simp [next, rest]

theorem cons_mem_rest_group (filled : Bool) :
    tag :: w ∈ (group filled).rest standard ↔
      ∃ q', (group filled).next standard (standard.role tag) = some q' ∧
        w ∈ q'.rest standard := by
  have he : (group filled).rest standard = _ := restInGroup_eq filled
  rw [he, Language.mem_add, cons_mem_word_mul, cons_mem_word_mul, ← role_eq_groupTrailer,
    ← role_eq_documentHeader]
  cases standard.role tag <;> simp [next, rest]

theorem cons_mem_rest_outside {grouping : Grouping} (hf : (outside grouping).Fits standard) :
    tag :: w ∈ (outside grouping).rest standard ↔
      ∃ q', (outside grouping).next standard (standard.role tag) = some q' ∧
        w ∈ q'.rest standard := by
  cases hr : standard.requiresGroups with
  | true =>
    have hg : grouping ≠ .ungrouped := fun hg ↦ (hf hr).1 (hg ▸ rfl)
    have he : (outside grouping).rest standard = _ := restOutside_eq_of_requiresGroups hr hg
    have hta : tag = "TA1" ↔ standard.role tag = .interchangeData := by
      simp [role_eq_interchangeData, hr]
    have hn := restInGroup_eq_of_requiresGroups hr false
    rw [he, Language.mem_add, Language.mem_add, cons_mem_word, cons_mem_word_mul,
      cons_mem_word_mul, ← role_eq_interchangeTrailer, ← role_eq_groupHeader, hta]
    cases standard.role tag <;> cases grouping <;> simp [next, rest, hr, hn] at hg ⊢
  | false =>
    have hta : standard.role tag ≠ .interchangeData := by
      simp [role_eq_interchangeData, hr]
    cases grouping with
    | undecided =>
      have he : (outside .undecided).rest standard = _ := restOutside_undecided_eq hr
      rw [he, Language.mem_add, Language.mem_add, cons_mem_word, cons_mem_word_mul,
        cons_mem_word_mul, ← role_eq_interchangeTrailer, ← role_eq_groupHeader,
        ← role_eq_documentHeader]
      cases h : standard.role tag <;> simp [next, rest, hr, h] at hta ⊢
    | grouped =>
      have he : (outside .grouped).rest standard = _ := restOutside_grouped_eq hr
      rw [he, Language.mem_add, cons_mem_word, cons_mem_word_mul, ← role_eq_interchangeTrailer,
        ← role_eq_groupHeader]
      cases h : standard.role tag <;> simp [next, rest, hr, h] at hta ⊢
    | ungrouped =>
      have he : (outside .ungrouped).rest standard = _ := restOutside_ungrouped_eq standard
      rw [he, Language.mem_add, cons_mem_word, cons_mem_word_mul, ← role_eq_interchangeTrailer,
        ← role_eq_documentHeader]
      cases h : standard.role tag <;> simp [next, rest, hr, h] at hta ⊢

theorem cons_mem_rest (hf : q.Fits standard) : tag :: w ∈ q.rest standard ↔
    ∃ q', q.next standard (standard.role tag) = some q' ∧ w ∈ q'.rest standard := by
  cases q with
  | outside grouping => exact cons_mem_rest_outside hf
  | group filled => exact cons_mem_rest_group filled
  | document grouped => exact cons_mem_rest_document grouped
  | finished => simp [rest, next]

theorem Fits.next {role : Role} {q' : Standing} (hf : q.Fits standard)
    (h : q.next standard role = some q') : q'.Fits standard := by
  intro hr
  have hq := hf hr
  cases q with
  | outside grouping => cases grouping <;> cases role <;> simp_all [Standing.next] <;> simp [← h]
  | group filled => cases filled <;> cases role <;> simp_all [Standing.next] <;> simp [← h]
  | document grouped => cases grouped <;> cases role <;> simp_all [Standing.next] <;> simp [← h]
  | finished => simp [Standing.next] at h

theorem nil_mem_rest : [] ∈ q.rest standard ↔ q = finished := by
  have hm {l m : Language String} (h : [] ∈ l * m) : [] ∈ l ∧ [] ∈ m := by
    obtain ⟨a, ha, b, hb, he⟩ := h
    obtain ⟨rfl, rfl⟩ := List.append_eq_nil_iff.1 he
    exact ⟨ha, hb⟩
  have hw {a : String} : [] ∉ word a :=
    fun h ↦ List.cons_ne_nil _ _ (Set.mem_singleton_iff.1 h).symm
  have ho (grouping : Grouping) : [] ∉ standard.restOutside grouping := by
    have hl : [] ∉ standard.envelopeLanguage := by
      simp only [envelopeLanguage]
      split <;> exact fun h ↦ hw (hm h).2
    cases grouping with
    | undecided => exact hl
    | grouped =>
      simp only [restOutside]
      split
      · exact hl
      · exact fun h ↦ hw (hm h).2
    | ungrouped => exact fun h ↦ hw (hm h).2
  constructor
  · intro h
    cases q with
    | outside grouping => exact absurd h (ho grouping)
    | group filled =>
      rw [show (group filled).rest standard = _ from restInGroup_eq filled] at h
      exact (h.elim (fun h ↦ hw (hm h).1) fun h ↦ hw (hm h).1).elim
    | document grouped => exact absurd (hm (hm h).2).1 hw
    | finished => rfl
  · rintro rfl
    rfl

theorem rest_nonempty (hf : q.Fits standard) : ∃ w, w ∈ q.rest standard := by
  have ho {grouping : Grouping} (hf : (outside grouping).Fits standard) :
      ∃ w, w ∈ (outside grouping).rest standard := by
    refine ⟨[standard.envelopeTags.interchangeTrailer], (cons_mem_rest hf).2 ⟨finished, ?_, rfl⟩⟩
    rw [role_eq_interchangeTrailer.2 rfl]
    cases grouping <;> rfl
  have hg (filled : Bool) : ∃ w, w ∈ (group filled).rest standard := by
    have hn : (group filled).next standard (standard.role standard.envelopeTags.groupTrailer) =
        some (outside (if filled then .grouped else .undecided)) := by
      rw [role_eq_groupTrailer.2 rfl]
      cases filled <;> rfl
    have hf : (group filled).Fits standard := fun _ ↦ by simp
    obtain ⟨w, hw⟩ := ho (hf.next hn)
    exact ⟨_ :: w, (cons_mem_rest hf).2 ⟨_, hn, hw⟩⟩
  cases q with
  | outside grouping => exact ho hf
  | group filled => exact hg filled
  | document grouped =>
    have hr := role_eq_documentTrailer.2 (rfl : standard.envelopeTags.documentTrailer = _)
    cases grouped with
    | true =>
      obtain ⟨w, hw⟩ := hg true
      exact ⟨_ :: w, (cons_mem_rest hf).2 ⟨_, by rw [hr]; rfl, hw⟩⟩
    | false =>
      have hn : (document false).next standard
          (standard.role standard.envelopeTags.documentTrailer) = some (outside .ungrouped) := by
        rw [hr]; rfl
      obtain ⟨w, hw⟩ := ho (hf.next hn)
      exact ⟨_ :: w, (cons_mem_rest hf).2 ⟨_, hn, hw⟩⟩
  | finished => exact ⟨[], rfl⟩

end Standing
namespace Envelope

variable {tables : LoopTables} {s : Segment} {e : Envelope} {t : Transition}

theorem Coherent.standing_fits (hc : e.Coherent) : e.standing.Fits e.standard := by
  intro hr
  have hu := hc.required hr
  by_cases hp : e.phase = .done
  · rw [standing_eq_finished hp]
    simp
  · cases hd : e.document with
    | some d =>
      have hg := hc.document (by simp [hd])
      rw [standing_eq_document hp hd]
      cases hg' : e.group <;> simp_all
    | none =>
      cases hg : e.group with
      | some g => rw [standing_eq_group hp hd hg]; simp
      | none => rw [standing_eq_outside hp hd hg]; simp [hu]

theorem nil_notMem_rest (hp : e.phase ≠ .done) : [] ∉ e.standing.rest e.standard := by
  rw [Standing.nil_mem_rest]
  exact standing_ne_finished hp

theorem Coherent.cons_mem_rest_of_step (hc : e.Coherent) (hp : e.phase ≠ .done)
    (h : e.step tables s = .ok t) (w : List String) :
    s.tag :: w ∈ e.standing.rest e.standard ↔ w ∈ t.next.standing.rest e.standard := by
  have hn := (step_eq_ok h).standing_next hc hp
  rw [Standing.cons_mem_rest hc.standing_fits, hn]
  constructor
  · intro hm
    obtain ⟨q, hq, hw⟩ := hm
    exact Option.some.inj hq ▸ hw
  · exact fun hw ↦ ⟨_, rfl, hw⟩

theorem Settled.cons_notMem_rest_of_step (hs : e.Settled) (hp : e.phase ≠ .done) {err : Error}
    (h : e.step tables s = .error err) (w : List String) :
    s.tag :: w ∉ e.standing.rest e.standard := by
  rw [Standing.cons_mem_rest hs.standing_fits]
  intro hm
  obtain ⟨q, hq, -⟩ := hm
  obtain ⟨t, ht⟩ := exists_passes tables s hp (hs.pending hp) hq
  rw [ht.step] at h
  simp at h

end Envelope

end Edi
