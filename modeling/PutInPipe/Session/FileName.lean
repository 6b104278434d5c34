import PutInPipe.Library.Text
import PutInPipe.Session.Metadata

/-!
# The name of the file

`setFileInfo` replaces bytes of the name one at a time. All it replaces are characters of one
byte, so that a name in UTF-8 stays one whatever is in it.
-/

open TransferSessionDetails
open Text (IsUTF8)

/-- The characters that are not allowed in the name of a file. -/
def forbiddenCharacters : List Char := ['/', '\\', ':', '*', '?', '"', '<', '>', '|']

/-- A byte of a file name that is a control character or one of those not allowed. -/
def Forbidden (c : UInt8) : Prop := c < 0x20 ∨ c ∈ forbiddenCharacters.map Char.toUInt8

instance (c : UInt8) : Decidable (Forbidden c) :=
  inferInstanceAs (Decidable (_ ∨ _))

theorem Forbidden.lt {c : UInt8} (h : Forbidden c) :
  c < 0x80
  := by
  obtain hlt | hmem := h
  · apply UInt8.lt_trans hlt (by decide)
  · have hall : (forbiddenCharacters.map Char.toUInt8).all (· < 0x80) = true := rfl
    apply of_decide_eq_true (List.all_eq_true.mp hall c hmem)

theorem not_forbidden_underscore :
  ¬Forbidden 0x5f
  := by decide

namespace FileInfo

open TransferSession (forbiddenInName)

theorem forbiddenInName_iff (c : UInt8) :
  forbiddenInName c = true ↔ Forbidden c
  := by
  simp only [forbiddenInName, Forbidden, forbiddenCharacters, Bool.or_eq_true, decide_eq_true_eq,
    beq_iff_eq, or_assoc, List.map_cons, List.map_nil, List.mem_cons, List.not_mem_nil, or_false]
  rfl

variable (info : FileInfo)

theorem name_sanitized :
  info.sanitized.name = info.name.map fun c => if Forbidden c then 0x5f else c
  := by
  rw [sanitized]
  apply List.map_congr_left
  intro c _
  simp only [forbiddenInName_iff]

theorem not_forbidden_of_mem_sanitized {c : UInt8} (h : c ∈ info.sanitized.name) :
  ¬Forbidden c
  := by
  rw [name_sanitized] at h
  obtain ⟨b, -, rfl⟩ := List.mem_map.mp h
  split
  · apply not_forbidden_underscore
  · assumption

/-- Where nothing is forbidden, nothing is replaced. -/
theorem sanitized_of_not_forbidden (h : ∀ c ∈ info.name, ¬Forbidden c) :
  info.sanitized = info
  := by
  have hname : info.sanitized.name = info.name := by
    rw [name_sanitized, List.map_congr_left fun c hc => if_neg (h c hc), List.map_id']
  calc info.sanitized
      = { info with name := info.sanitized.name } := rfl
    _ = info := by rw [hname]

theorem sanitized_sanitized :
  info.sanitized.sanitized = info.sanitized
  := by
  apply sanitized_of_not_forbidden
  intro c
  apply not_forbidden_of_mem_sanitized

theorem isUTF8_sanitized (h : IsUTF8 info.name) :
  IsUTF8 info.sanitized.name
  := by
  rw [name_sanitized]
  apply Text.isUTF8_map _ _ h
  · intro b hb
    apply if_neg
    intro hforbidden
    apply UInt8.not_lt.mpr hb hforbidden.lt
  · intro b hb
    split
    · decide
    · apply hb

/-- What is accepted has the bounds of an accepted name again. -/
theorem acceptable_sanitized :
  info.sanitized.acceptable = info.acceptable
  := by
  rw [acceptable, acceptable]
  have hempty : info.sanitized.name.isEmpty = info.name.isEmpty := by
    rw [sanitized, List.isEmpty_map]
  have hlength : info.sanitized.name.length = info.name.length := by
    rw [sanitized, List.length_map]
  rw [hempty, hlength]
  rfl

theorem acceptable_eq_false_iff :
  info.acceptable = false
    ↔ info.name = [] ∨ NAME_MAX_LENGTH < info.name.length ∨ info.size = 0
  := by
  rw [acceptable, Bool.and_eq_false_iff, Bool.not_eq_false', Bool.not_eq_false',
    Bool.or_eq_true, List.isEmpty_iff, decide_eq_true_eq, beq_iff_eq, or_assoc, gt_iff_lt]

end FileInfo

namespace TransferSession

/-- What becomes of the information a sender announces, in the session and in its events. -/
structure Keeps (s t : TransferSession) (info : FileInfo) : Prop where
  size : t.fileInfo.size = info.size
  length : t.fileInfo.name.length = info.name.length
  allowed : ∀ c ∈ t.fileInfo.name, ¬Forbidden c
  bytes : ∀ (i : ℕ) (c : UInt8), info.name[i]? = some c →
    t.fileInfo.name[i]? = some (if Forbidden c then 0x5f else c)
  isUTF8 : IsUTF8 info.name → IsUTF8 t.fileInfo.name
  again : t.setFileInfo t.fileInfo = (t.notify (.fileInfoUpdated t.fileInfo), true)
  events : t.events = s.events ++ [.fileInfoUpdated t.fileInfo]

/-- A name is stored with the forbidden bytes of it replaced, or the session is left as it
is. -/
theorem setFileInfo_sanitizes (s : TransferSession) (info : FileInfo) :
  if info.name = [] ∨ FileInfo.NAME_MAX_LENGTH < info.name.length ∨ info.size = 0 then
    s.setFileInfo info = (s, false)
  else
    (s.setFileInfo info).2 = true ∧ s.Keeps (s.setFileInfo info).1 info
  := by
  split
  case isTrue hrefused =>
      rw [setFileInfo_eq, (info.acceptable_eq_false_iff).mpr hrefused, if_neg Bool.false_ne_true]
  case isFalse haccepted =>
      rw [← info.acceptable_eq_false_iff, Bool.not_eq_false] at haccepted
      rw [setFileInfo_eq, if_pos haccepted]
      constructor
      · rfl
      · constructor
        case size => rfl
        case length => apply List.length_map
        case allowed =>
            intro c
            apply info.not_forbidden_of_mem_sanitized
        case bytes =>
            intro i c hc
            change info.sanitized.name[i]? = _
            rw [info.name_sanitized, List.getElem?_map, hc, Option.map_some]
        case isUTF8 => apply info.isUTF8_sanitized
        case again =>
            rw [setFileInfo_eq, if_pos (info.acceptable_sanitized.trans haccepted),
              info.sanitized_sanitized]
            rfl
        case events => rfl

end TransferSession
