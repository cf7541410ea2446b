import Edi.Proofs.Attributes
import Edi.Proofs.Envelope.Surroundings

namespace Edi

namespace Standard

def interchangeVersion : Standard → Attributes → String
  | x12, a => a.text "Version"
  | edifact, a | tradacoms, a => a.text "SyntaxVersion"

def groupVersion : Standard → Attributes → String
  | x12, a => a.text "StandardVersion"
  | edifact, a => a.text "StandardVersion" ++ a.text "StandardRelease"
  | tradacoms, _ => ""

def documentVersion : Standard → Attributes → String
  | edifact, a => a.text "Version" ++ a.text "Release"
  | x12, a | tradacoms, a => a.text "Version"

end Standard

def firstNonempty (texts : List String) : Option String := texts.find? (· ≠ "")

@[simp] theorem firstNonempty_nil : firstNonempty [] = none := rfl

@[simp] theorem firstNonempty_cons (text : String) (texts : List String) :
    firstNonempty (text :: texts) = (nonempty? text).or (firstNonempty texts) := by
  by_cases h : text = "" <;> simp [firstNonempty, nonempty?, h]

open Attributes

/-- The attributes of an interchange state what the rest of its header says. -/
structure InterchangeHeader.Stated (standard : Standard) (h : InterchangeHeader) : Prop where
  control : h.attributes.get? "Control" = some h.control
  version : h.version = nonempty? (standard.interchangeVersion h.attributes)
  standard_notMem : "Standard" ∉ h.attributes.names

structure GroupHeader.Stated (standard : Standard) (h : GroupHeader) : Prop where
  control : h.attributes.get? "Control" = some h.control
  version : h.version = nonempty? (standard.groupVersion h.attributes)

structure DocumentHeader.Stated (standard : Standard) (groupVersion : Option String)
    (h : DocumentHeader) : Prop where
  control : h.attributes.get? "Control" = some h.control
  documentType : h.attributes.get? "DocType" = some h.documentType
  version : h.version = (nonempty? (standard.documentVersion h.attributes)).or groupVersion

theorem get?_control {es fs : List (String × String)} {control : String}
    (h : "Control" ∉ fs.map Prod.fst) :
    (((empty.extendNonempty es).insert "Control" control).extendNonempty fs).get? "Control" =
      some control :=
  (get?_extendNonempty h).trans get?_insert_self

theorem InterchangeHeader.ofSegment_stated (standard : Standard) (s : Segment) :
    (ofSegment standard s).value.Stated standard := by
  have hn := standard_notMem_attributes standard s
  cases standard with
  | x12 =>
    refine ⟨get?_control (by simp), congrArg nonempty? (.symm ?_), hn⟩
    exact (text_extendNonempty_insert (by simp) (by simp)).trans (by simp [List.lookup_cons])
  | edifact =>
    refine ⟨get?_control (by simp), congrArg nonempty? (.symm ?_), hn⟩
    exact (text_extendNonempty_insert (by simp) (by simp)).trans (by simp [List.lookup_cons])
  | tradacoms =>
    refine ⟨get?_control (by simp), congrArg nonempty? (.symm ?_), hn⟩
    exact (text_extendNonempty_insert (by simp) (by simp)).trans (by simp [List.lookup_cons])

theorem GroupHeader.ofSegment_stated (standard : Standard) (s : Segment) :
    (ofSegment standard s).value.Stated standard := by
  cases standard with
  | x12 =>
    refine ⟨get?_control (by simp), congrArg nonempty? (.symm ?_)⟩
    exact (text_extendNonempty_insert (by simp) (by simp)).trans (by simp [List.lookup_cons])
  | edifact =>
    have hv : (ofEdifact s).value.attributes.text "StandardVersion" = s.component 7 1 :=
      (text_extendNonempty_insert (by simp) (by simp)).trans (by simp [List.lookup_cons])
    have hr : (ofEdifact s).value.attributes.text "StandardRelease" = s.component 7 2 :=
      (text_extendNonempty_insert (by simp) (by simp)).trans (by simp [List.lookup_cons])
    exact ⟨get?_control (by simp), congrArg nonempty? (hv ▸ hr ▸ rfl)⟩
  | tradacoms => exact ⟨get?_insert_self, rfl⟩

theorem DocumentHeader.ofSegment_stated (standard : Standard) {groupVersion : Option String}
    (hg : standard = .tradacoms → groupVersion = none) (s : Segment) :
    (ofSegment standard groupVersion s).value.Stated standard groupVersion := by
  cases standard with
  | x12 =>
    refine ⟨?_, ?_, congrArg (fun v ↦ (nonempty? v).or groupVersion) ?_⟩
    · exact (get?_insertNonempty_of_ne (by simp)).trans (get?_ofList_pair (by simp)).2
    · exact (get?_insertNonempty_of_ne (by simp)).trans (get?_ofList_pair (by simp)).1
    · exact (text_insertNonempty (text_ofList_of_notMem (by simp))).symm
  | edifact =>
    have hv : (ofEdifact groupVersion s).value.attributes.text "Version" = s.component 2 2 :=
      (text_extendNonempty (by simp) (text_ofList_of_notMem (by simp))).trans (by simp)
    have hr : (ofEdifact groupVersion s).value.attributes.text "Release" = s.component 2 3 :=
      (text_extendNonempty (by simp) (text_ofList_of_notMem (by simp))).trans
        (by simp [List.lookup_cons])
    refine ⟨?_, ?_, congrArg (fun v ↦ (nonempty? v).or groupVersion) (hv ▸ hr ▸ rfl)⟩
    · exact (get?_extendNonempty (by simp)).trans (get?_ofList_pair (by simp)).1
    · exact (get?_extendNonempty (by simp)).trans (get?_ofList_pair (by simp)).2
  | tradacoms =>
    refine ⟨?_, ?_, ?_⟩
    · exact (get?_insertNonempty_of_ne (by simp)).trans (get?_ofList_pair (by simp)).1
    · exact (get?_insertNonempty_of_ne (by simp)).trans (get?_ofList_pair (by simp)).2
    · rw [hg rfl, Option.or_none]
      exact congrArg nonempty? (text_insertNonempty (text_ofList_of_notMem (by simp))).symm

namespace Envelope

/-- The headers of an envelope state in their attributes what its notices repeat. -/
structure Stated (e : Envelope) : Prop where
  interchange : e.header.Stated e.standard
  group : ∀ g, e.group = some g → g.header.Stated e.standard
  document : ∀ d, e.document = some d →
    d.header.Stated e.standard (e.group.bind (·.header.version))

variable {tables : LoopTables} {s : Segment} {e : Envelope} {t : Transition} {role : Role}

theorem start_stated (standard : Standard) (header : Segment) :
    (start standard header).next.Stated := by
  refine ⟨InterchangeHeader.ofSegment_stated standard header, ?_, ?_⟩
  · simp [start]
  · simp [start]

theorem Stated.groupVersion (h : e.Stated) (hs : e.standard = .tradacoms) :
    e.group.bind (·.header.version) = none := by
  cases hg : e.group with
  | none => rfl
  | some g =>
    have hv := (h.group g hg).version
    rw [hs] at hv
    exact hv

theorem Passes.stated_halted (he : e.Stated) (h : Passes tables s e role t) :
    t.halted.Stated := by
  cases h with
  | groupHeader hd hg hn =>
    refine ⟨he.interchange, ?_, ?_⟩
    · rintro _ ⟨⟩
      exact GroupHeader.ofSegment_stated e.standard s
    · simp [groupOpened, hd]
  | groupTrailer g hd hg => exact he
  | documentHeader hd hn =>
    have hv : (e.documentOpened tables s).halted.group.bind (·.header.version) =
        e.group.bind (·.header.version) := by
      cases hg : e.group <;> simp [documentOpened, hg]
    refine ⟨he.interchange, ?_, ?_⟩
    · intro g' hg'
      obtain ⟨g, hg, rfl⟩ := Option.map_eq_some_iff.1 hg'
      exact he.group g hg
    · rintro _ ⟨⟩
      rw [hv]
      exact DocumentHeader.ofSegment_stated e.standard he.groupVersion s
  | documentTrailer d hd => exact he
  | interchangeTrailer h hd hg hi => exact ⟨he.interchange, he.group, he.document⟩
  | interchangeData hd hg => exact he
  | data d _ hr hd =>
    refine ⟨he.interchange, he.group, ?_⟩
    rintro _ ⟨⟩
    exact he.document d hd

theorem Passes.stated_next (he : e.Stated) (h : Passes tables s e role t) : t.next.Stated := by
  have ha := h.stated_halted he
  cases h with
  | groupHeader hd hg hn => exact ha
  | documentHeader hd hn => exact ha
  | interchangeData hd hg => exact ha
  | data d _ hr hd => exact ha
  | groupTrailer g hd hg =>
    refine ⟨he.interchange, ?_, ?_⟩
    · simp [groupClosed]
    · simp [groupClosed, hd]
  | documentTrailer d hd =>
    refine ⟨he.interchange, he.group, ?_⟩
    simp [documentClosed]
  | interchangeTrailer h hd hg hi => exact ⟨he.interchange, he.group, he.document⟩

theorem get?_attributes {name : String} (hn : name ≠ "Standard") :
    e.attributes.get? name = e.header.attributes.get? name := by
  have ho : (ofList [("Standard", e.standard.name)]).get? name = none := by
    simp [get?_ofList, List.lookup_cons, beq_false_of_ne hn]
  rw [Envelope.attributes, get?_extend_of_nodup e.header.attributes.nodup, ho, Option.or_none]
  rfl

theorem interchangeVersion_attributes (e : Envelope) :
    e.standard.interchangeVersion e.attributes =
      e.standard.interchangeVersion e.header.attributes := by
  cases e.standard <;> simp [Standard.interchangeVersion, text, get?_attributes]

theorem Stated.standard (h : e.Stated) : e.attributes.get? "Standard" = some e.standard.name := by
  refine (get?_extend h.interchange.standard_notMem).trans ?_
  simp [get?_ofList]

end Envelope

theorem Party.text_attributes (p : Party) :
    Party.mk (p.attributes.text "Id") (p.attributes.text "Qual") = p := by
  have hi : (ofList [("Id", p.id)]).get? "Id" = some p.id := by simp [get?_ofList]
  have hid : p.attributes.text "Id" = p.id := by
    rw [Party.attributes, text, get?_insertNonempty_of_ne (by simp), hi, Option.getD_some]
  have hq : p.attributes.text "Qual" = p.qualifier :=
    text_insertNonempty (text_ofList_of_notMem (by simp))
  rw [hid, hq]

end Edi
