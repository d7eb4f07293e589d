/-
  LambdaSyntax.Proofs.Files — what a path leads to.

  Following a path ends at an entry of the working directory or at a directory, or it stops with a
  fault of the system; so it is for every step on the way (`found_outside`, `found_follow`). Reading
  a file therefore gives the bytes of an entry, or a fault of the system, unless the path cannot
  be a path at all (`bytesAt_cases`). Where all the files are texts, what is read is the text
  of one of them, with line feeds for its line ends (`textAt_cases`).
-/

import LambdaSyntax.Files
import LambdaSyntax.Proofs.Utf8

namespace LambdaSyntax

/-- The bytes are those of some characters. -/
def IsText (bytes : List UInt8) : Prop := ∃ cs, bytes = Text.Utf8.encode cs

theorem decodeText_encode (cs : List Char) :
    decodeText (Text.Utf8.encode cs) = .ok (String.ofList (Text.lineFeeds cs)) := by
  rw [decodeText, Text.Utf8.decode_encode]

namespace Files

/-- Every file is a text. -/
def HoldsTexts (fs : Files) : Prop := ∀ e ∈ fs.entries, ∀ bytes, e.2 = .file bytes → IsText bytes

/-- What following a path can come to. -/
def Found (fs : Files) : Except FileFault Entry → Prop
  | .ok (.file bytes) => ∃ e ∈ fs.entries, e.2 = .file bytes
  | .ok .directory => True
  | .error f => f.system?.isSome = true

variable {fs : Files} {place names : List (List Char)} {bytes : List UInt8} {path : String}

theorem mem_of_entryAt (h : fs.entryAt place = some (.file bytes)) : ∃ e ∈ fs.entries, e.2 = .file bytes := by
  unfold entryAt at h
  split at h
  · rename_i e he
    obtain ⟨before, after, hentries, -⟩ := List.lookup_eq_some_iff.mp he
    exact ⟨(place, e), by simp [hentries], Option.some.inj h⟩
  · split at h <;> cases h

theorem found_outside (fs : Files) (names : List (List Char)) : fs.Found (outside names) := by
  induction names with
  | nil => trivial
  | cons name names ih =>
    rw [outside]
    split
    · exact ih
    split
    · rfl
    · rfl

theorem found_follow (fs : Files) (place names : List (List Char)) : fs.Found (fs.follow place names) := by
  induction names generalizing place with
  | nil =>
    rw [follow]
    cases h : fs.entryAt place with
    | none => rfl
    | some e =>
      cases e with
      | file bytes => exact mem_of_entryAt h
      | directory => trivial
  | cons name names ih =>
    rw [follow]
    cases fs.entryAt place with
    | none => rfl
    | some e =>
      cases e with
      | file bytes => rfl
      | directory =>
        simp only
        split
        · exact ih place
        split
        · split
          · exact found_outside fs names
          · exact ih _
        split
        · rfl
        · exact ih _

theorem found_locate (fs : Files) (path : String) : fs.Found (fs.locate path) := by
  unfold locate
  split
  · rfl
  split
  · rfl
  split
  · exact found_outside fs _
  · exact found_follow fs [] _

/-- The bytes of an entry are read, or the system has a fault. -/
theorem bytesAt_cases (fs : Files) (hpath : '\x00' ∉ path.toList) :
    (∃ bytes, fs.bytesAt path = .ok bytes ∧ ∃ e ∈ fs.entries, e.2 = .file bytes) ∨
    ∃ f, fs.bytesAt path = .error f ∧ f.system?.isSome = true := by
  have hfound := found_locate fs path
  rw [bytesAt, if_neg hpath]
  cases hl : fs.locate path with
  | error f =>
    rw [hl] at hfound
    exact .inr ⟨f, rfl, hfound⟩
  | ok e =>
    rw [hl] at hfound
    cases e with
    | file bytes => exact .inl ⟨bytes, rfl, hfound⟩
    | directory => exact .inr ⟨.isDirectory, rfl, rfl⟩

theorem textAt_cases (htexts : fs.HoldsTexts) (hpath : '\x00' ∉ path.toList) :
    (∃ cs, fs.bytesAt path = .ok (Text.Utf8.encode cs) ∧ fs.textAt path = .ok (String.ofList (Text.lineFeeds cs))) ∨
    ∃ f, fs.textAt path = .error f ∧ f.system?.isSome = true := by
  unfold textAt
  rcases bytesAt_cases fs hpath with ⟨bytes, hbytes, e, he, hfile⟩ | ⟨f, hf, hsystem⟩
  · obtain ⟨cs, rfl⟩ := htexts e he bytes hfile
    refine .inl ⟨cs, hbytes, ?_⟩
    rw [hbytes]
    exact decodeText_encode cs
  · refine .inr ⟨f, ?_, hsystem⟩
    rw [hf]
    rfl

end Files

end LambdaSyntax
