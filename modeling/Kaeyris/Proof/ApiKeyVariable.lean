import Kaeyris.Keyring
import Kaeyris.Proof.Requests

/-!
# The format of `API_KEYS`

The parser reads back what is written in the format of the variable and yields nothing else.
-/

namespace Kaeyris.Keyring
open Lib Proof

structure APIKeyEntry.WellFormed (entry : APIKeyEntry) : Prop where
  named : entry.name ≠ []
  trimmedName : Text.Trimmed entry.name
  noColon : ':' ∉ entry.name
  noSemicolon : ';' ∉ entry.name ∧ ';' ∉ entry.hash
  marked : argonMark <+: entry.hash
  trimmedHash : Text.Trimmed entry.hash

def APIKeyEntry.render (entry : APIKeyEntry) : Text := entry.name ++ ':' :: entry.hash

def renderAll (entries : List APIKeyEntry) : Text :=
  Text.join [';'] (entries.map APIKeyEntry.render)

section Parser
variable {entry : APIKeyEntry} {part : Text}

theorem notMem_of_mem_splitOn {separator : Char} {text part : Text}
    (member : part ∈ text.splitOn separator) : separator ∉ part := by
  induction text generalizing part with
  | nil =>
      obtain rfl : part = [] := by simpa using member
      exact List.not_mem_nil
  | cons c rest ih =>
      rw [List.splitOn_cons_eq_if_modifyHead] at member
      split at member
      · rcases List.mem_cons.mp member with rfl | later
        · exact List.not_mem_nil
        · exact ih later
      · rename_i other
        cases shape : rest.splitOn separator with
        | nil => exact absurd shape (List.splitOn_ne_nil _ _)
        | cons first others =>
            rw [shape] at member
            rcases List.mem_cons.mp member with rfl | later
            · have clean : separator ∉ first := ih (by simp [shape])
              have apart : separator ≠ c := fun same => other (by simp [same])
              simp [clean, apart]
            · exact ih (by simp [shape, later])

theorem mem_of_mem_strip {c : Char} {text : Text} (member : c ∈ Text.strip text) : c ∈ text :=
  (List.dropWhile_suffix _).mem ((List.rdropWhile_prefix (p := Text.isSpace) _).mem member)

theorem argonMark_cons : ∃ rest, argonMark = '$' :: rest := ⟨"argon2id$".toList, by decide⟩

theorem marked_head {hash : Text} (marked : argonMark <+: hash) :
    ∀ c ∈ hash.head?, ¬Text.isSpace c := by
  obtain ⟨rest, rfl⟩ := marked
  obtain ⟨tail, mark⟩ := argonMark_cons
  intro c first
  rw [mark] at first
  obtain rfl : '$' = c := by simpa using first
  decide

theorem marked_ne_nil {hash : Text} (marked : argonMark <+: hash) : hash ≠ [] := by
  obtain ⟨rest, rfl⟩ := marked
  obtain ⟨tail, mark⟩ := argonMark_cons
  rw [mark]
  exact List.cons_ne_nil _ _

theorem wellFormed_of_parsePart (trimmed : Text.Trimmed part) (whole : ';' ∉ part)
    (parsed : parsePart part = .ok entry) : entry.WellFormed := by
  have pieces := List.takeWhile_append_dropWhile (p := (· ≠ ':')) (l := part)
  unfold parsePart at parsed
  dsimp only at parsed
  split at parsed
  · cases parsed
  · rename_i colon hashValue shape
    split at parsed
    · cases parsed
    · rename_i filled
      obtain ⟨named, hashed⟩ : part.takeWhile (· ≠ ':') ≠ [] ∧ hashValue ≠ [] := by
        simpa using filled
      split at parsed
      · cases parsed
      · rename_i prefixed
        have marked : argonMark <+: hashValue :=
          List.isPrefixOf_iff_prefix.mp (by simpa using prefixed)
        cases parsed
        rw [shape] at pieces
        have nameHead : ∀ c ∈ (part.takeWhile (· ≠ ':')).head?, ¬Text.isSpace c := by
          intro c first
          refine trimmed.1 c ?_
          rw [← pieces, List.head?_append, Option.mem_def.mp first]
          rfl
        have hashTrimmed : Text.Trimmed hashValue := by
          refine ⟨marked_head marked, fun c last => trimmed.2 c ?_⟩
          rw [← pieces, List.getLast?_append_of_ne_nil _ (List.cons_ne_nil _ _),
            List.getLast?_cons_of_ne_nil hashed]
          exact last
        rw [Text.strip_of_trimmed hashTrimmed]
        refine ⟨?_, Text.strip_trimmed _, ?_, ⟨?_, ?_⟩, marked, hashTrimmed⟩
        · intro blank
          have spaces := Text.strip_eq_nil.mp blank
          obtain ⟨c, rest, same⟩ := List.exists_cons_of_ne_nil named
          refine nameHead c (by rw [same]; rfl) (spaces c ?_)
          rw [same]
          exact List.mem_cons_self
        · intro member
          have kept := List.mem_takeWhile_imp (mem_of_mem_strip member)
          simp at kept
        · intro member
          exact whole ((List.takeWhile_prefix _).mem (mem_of_mem_strip member))
        · intro member
          refine whole ?_
          rw [← pieces]
          exact List.mem_append_right _ (List.mem_cons_of_mem _ member)

theorem parsePart_render (entry : APIKeyEntry) (well : entry.WellFormed) :
    parsePart entry.render = .ok entry := by
  have before : entry.render.takeWhile (· ≠ ':') = entry.name := by
    rw [APIKeyEntry.render, List.takeWhile_append_of_pos]
    · simp
    · intro c member
      simp only [ne_eq, decide_eq_true_eq]
      rintro rfl
      exact well.noColon member
  have rest : entry.render.dropWhile (· ≠ ':') = ':' :: entry.hash := by
    rw [APIKeyEntry.render, List.dropWhile_append_of_pos]
    · simp
    · intro c member
      simp only [ne_eq, decide_eq_true_eq]
      rintro rfl
      exact well.noColon member
  have hashed : entry.hash ≠ [] := marked_ne_nil well.marked
  have prefixed : argonMark.isPrefixOf entry.hash = true :=
    List.isPrefixOf_iff_prefix.mpr well.marked
  unfold parsePart
  rw [before, rest]
  simp [well.named, hashed, prefixed, Text.strip_of_trimmed well.trimmedName,
    Text.strip_of_trimmed well.trimmedHash]

theorem render_trimmed (well : entry.WellFormed) : Text.Trimmed entry.render := by
  have hashed : entry.hash ≠ [] := marked_ne_nil well.marked
  constructor
  · intro c first
    refine well.trimmedName.1 c ?_
    obtain ⟨d, rest, same⟩ := List.exists_cons_of_ne_nil well.named
    rw [APIKeyEntry.render, same] at first
    rw [same]
    exact first
  · intro c last
    refine well.trimmedHash.2 c ?_
    rw [APIKeyEntry.render, List.getLast?_append_of_ne_nil _ (List.cons_ne_nil _ _),
      List.getLast?_cons_of_ne_nil hashed] at last
    exact last

theorem wellFormed_of_parseParts {parts : List Text} {entries : List APIKeyEntry}
    (whole : ∀ part ∈ parts, ';' ∉ part) (parsed : parseParts parts = .ok entries) :
    ∀ entry ∈ entries, entry.WellFormed := by
  induction parts generalizing entries with
  | nil =>
      cases parsed
      simp
  | cons rawPart rest ih =>
      have later := fun part member => whole part (List.mem_cons_of_mem rawPart member)
      unfold parseParts at parsed
      dsimp only at parsed
      split at parsed
      · exact ih later parsed
      · obtain ⟨first, read, parsed⟩ := except_bind_ok parsed
        obtain ⟨others, readLater, parsed⟩ := except_bind_ok parsed
        cases parsed
        intro entry member
        rcases List.mem_cons.mp member with rfl | member
        · refine wellFormed_of_parsePart (Text.strip_trimmed rawPart) ?_ read
          exact fun found => whole rawPart List.mem_cons_self (mem_of_mem_strip found)
        · exact ih later readLater entry member

theorem parseParts_render {entries : List APIKeyEntry}
    (well : ∀ entry ∈ entries, entry.WellFormed) :
    parseParts (entries.map APIKeyEntry.render) = .ok entries := by
  induction entries with
  | nil => rfl
  | cons entry rest ih =>
      have first := well entry List.mem_cons_self
      have filled : entry.render ≠ [] := by simp [APIKeyEntry.render]
      have later := ih fun entry member => well entry (List.mem_cons_of_mem _ member)
      simp only [List.map_cons, parseParts, Text.strip_of_trimmed (render_trimmed first),
        if_neg filled, parsePart_render entry first, later]
      rfl

theorem parse_renderAll {entries : List APIKeyEntry}
    (well : ∀ entry ∈ entries, entry.WellFormed) :
    parseApiKeys (some (renderAll entries)) = .ok entries := by
  cases entries with
  | nil => rfl
  | cons entry rest =>
      have whole : ∀ part ∈ (entry :: rest).map APIKeyEntry.render, ';' ∉ part := by
        intro part member
        obtain ⟨e, listed, rfl⟩ := List.mem_map.mp member
        obtain ⟨name, hash⟩ := (well e listed).noSemicolon
        simp [APIKeyEntry.render, name, hash]
      have parts : (renderAll (entry :: rest)).splitOn ';' =
          (entry :: rest).map APIKeyEntry.render :=
        List.splitOn_intercalate ';' whole (by simp)
      have filled : renderAll (entry :: rest) ≠ [] := by
        intro empty
        rw [empty] at parts
        have first : entry.render = [] := (List.cons.inj parts).1.symm
        simp [APIKeyEntry.render] at first
      rw [parseApiKeys, parts]
      · exact parseParts_render well
      · exact filled

theorem wellFormed_of_parse {raw : Option Text} {entries : List APIKeyEntry}
    (parsed : parseApiKeys raw = .ok entries) : ∀ entry ∈ entries, entry.WellFormed := by
  unfold parseApiKeys at parsed
  split at parsed
  · cases parsed
    simp
  · cases parsed
    simp
  · exact wellFormed_of_parseParts (fun _ member => notMem_of_mem_splitOn member) parsed

end Parser

/-- The variable yields well-formed entries only, and any list of them can be written in it. -/
theorem parse_exact (entries : List APIKeyEntry) :
    ((∃ raw, parseApiKeys raw = .ok entries) ↔ ∀ entry ∈ entries, entry.WellFormed) ∧
      (parseApiKeys (some (renderAll entries)) = .ok entries ↔
        ∀ entry ∈ entries, entry.WellFormed) :=
  ⟨⟨fun ⟨_, parsed⟩ => wellFormed_of_parse parsed, fun well => ⟨_, parse_renderAll well⟩⟩,
    wellFormed_of_parse, parse_renderAll⟩

end Kaeyris.Keyring
