import Worksheet.CommandLine.Report
import Worksheet.Proofs.Encoding.Utf8
import Worksheet.Proofs.Text.Newline

namespace Worksheet.CommandLine

structure Arguments.Opens (a : Arguments) (folder : Folder) (text : String) : Prop where
  allowed : refusal? a = none
  decodes : ∃ bytes encoding, folder.openPath (Path.ofText a.source) = .ok bytes ∧
    Encoding.ofName? a.encoding = some encoding ∧ encoding.decode bytes = .ok text.toList

theorem ofName?_utf8 : Encoding.ofName? "utf-8" = some .utf8 := by
  decide

theorem opens_toUTF8 {folder : Folder} {f : Family} {source text : String}
    {preset : Option TablePreset} (hnull : (Path.ofText source).hasNull = false)
    (hbytes : folder.openPath (Path.ofText source) = .ok text.toUTF8.data.toList) :
    (⟨f, source, preset, false, "utf-8", false⟩ : Arguments).Opens folder text where
  allowed := by simp [refusal?, hnull]
  decodes := ⟨_, .utf8, hbytes, ofName?_utf8, Encoding.decode_toUTF8 text⟩

def ExitsWith (folder : Folder) (a : Arguments) (status : Nat) : Prop :=
  ∃ outcome, checkIn folder a = .ok outcome ∧ outcome.status = status

theorem checkIn_of_opens {folder : Folder} {a : Arguments} {text : String}
    (h : a.Opens folder text) (hreturn : '\r' ∉ text.toList) :
    checkIn folder a = .ok (checkText a text) := by
  obtain ⟨hallowed, bytes, encoding, hbytes, hencoding, hdecode⟩ := h
  rw [checkIn, hallowed]
  simp only [hbytes, report, checkBytes, hencoding, hdecode,
    Chars.unifyNewlines_of_not_mem hreturn, String.ofList_toList]

theorem exitsWith_of_opens {folder : Folder} {a : Arguments} {text : String}
    (h : a.Opens folder text) (hreturn : '\r' ∉ text.toList) :
    ExitsWith folder a
      (if (Exercise.check a.family text (a.preset.getD .classification)).ok then 0 else 1) :=
  ⟨_, checkIn_of_opens h hreturn, rfl⟩

def IsName (s : String) : Prop := s.toList.head? ≠ some '-'

instance (s : String) : Decidable (IsName s) := inferInstanceAs (Decidable (_ ≠ _))

theorem wordOf?_of_isName {s : String} (h : IsName s) : wordOf? s = some (.plain s) := by
  unfold wordOf?
  unfold IsName at h
  split
  · next hs => simp [hs] at h
  · next hs => simp [hs] at h
  · rfl

theorem IsName.ne_divider {s : String} (h : IsName s) : s ≠ "--" := by
  rintro rfl
  exact h rfl

theorem wordsOf?_cons {s : String} {word : Word} (hs : s ≠ "--") (h : wordOf? s = some word)
    (rest : List String) : wordsOf? (s :: rest) = (wordsOf? rest).map (word :: ·) := by
  rw [wordsOf?, if_neg hs, h]
  cases wordsOf? rest <;> rfl

def presetWords : Option TablePreset → List String
  | none => []
  | some preset => ["--preset", preset.name]

def presetFlags : Option TablePreset → List Word
  | none => []
  | some preset => [.long .preset none, .plain preset.name]

theorem wordsOf?_presetWords (preset : Option TablePreset) :
    wordsOf? (presetWords preset) = some (presetFlags preset) := by
  cases preset with
  | none => rfl
  | some preset => cases preset <;> decide

theorem isName_name (f : Family) : IsName f.name := by
  cases f <;> decide

theorem arguments_words (f : Family) {source : String} (h : IsName source)
    (preset : Option TablePreset) :
    arguments (f.name :: source :: presetWords preset) =
      .ok ⟨f, source, preset, false, "utf-8", false⟩ := by
  have hwords : wordsOf? (f.name :: source :: presetWords preset) =
      some (.plain f.name :: .plain source :: presetFlags preset) := by
    rw [wordsOf?_cons (isName_name f).ne_divider (wordOf?_of_isName (isName_name f)),
      wordsOf?_cons h.ne_divider (wordOf?_of_isName h), wordsOf?_presetWords]
    rfl
  have hfamily : Reading.start.place f.name =
      .ok ⟨some f, none, none, false, "utf-8", false, false, true, false, false⟩ := by
    simp [Reading.place, Reading.start, Reading.isComplete, Family.ofName?_name]
  have hsource : Reading.place ⟨some f, none, none, false, "utf-8", false, false, true, false, false⟩
      source = .ok ⟨some f, some source, none, false, "utf-8", false, false, true, false, false⟩ := by
    simp [Reading.place, Reading.isComplete, h.ne_divider]
  rw [arguments, hwords]
  simp only [Reading.read, hfamily, hsource, bind, Except.bind]
  cases preset with
  | none => rfl
  | some preset => cases preset <;> rfl

end Worksheet.CommandLine
