import Mathlib.Data.List.Infix

/-!
# Occurrences of a token

A text is split at a token from the left, and what is looked for is the first
occurrence.  For a token of which no proper beginning is also an end, occurrences
never overlap: the first one is the only one with no token in the text before it.
-/

namespace ScaphandreFormal.Foundation

variable {Letter : Type} [DecidableEq Letter]

/-! ## Splitting -/

/-- The pieces of the text after some letters that still belong to a token. -/
def splitFrom (word : List Letter) : Nat → List Letter → List (List Letter)
  | _, [] => [[]]
  | skip + 1, _ :: rest => splitFrom word skip rest
  | 0, c :: rest =>
      if word <+: c :: rest then [] :: splitFrom word (word.length - 1) rest
      else (splitFrom word 0 rest).modifyHead (c :: ·)

/-- `text.split(word)`. -/
def splitToken (word text : List Letter) : List (List Letter) := splitFrom word 0 text

theorem splitFrom_append (word before rest : List Letter) :
    splitFrom word before.length (before ++ rest) = splitFrom word 0 rest := by
  induction before with
  | nil => rfl
  | cons c before ih => exact ih

theorem splitToken_of_prefix {word : List Letter} (nonempty : word ≠ []) (rest : List Letter) :
    splitToken word (word ++ rest) = [] :: splitToken word rest := by
  cases word with
  | nil => exact absurd rfl nonempty
  | cons c letters =>
      have isPrefix : c :: letters <+: c :: (letters ++ rest) := List.prefix_append _ _
      rw [splitToken, List.cons_append, splitFrom, if_pos isPrefix, splitToken,
        ← splitFrom_append (c :: letters) letters rest]
      rfl

theorem splitToken_cons_of_unmatched {word : List Letter} {c : Letter} {rest : List Letter}
    (absent : ¬ word <+: c :: rest) :
    splitToken word (c :: rest) = (splitToken word rest).modifyHead (c :: ·) :=
  if_neg absent

theorem splitToken_of_absent {word text : List Letter}
    (absent : ¬ word <:+: text) : splitToken word text = [text] := by
  induction text with
  | nil => rfl
  | cons c rest ih =>
      have notHere : ¬ word <+: c :: rest := fun here => absent here.isInfix
      have notLater : ¬ word <:+: rest := fun later =>
        absent (later.trans (List.suffix_cons c rest).isInfix)
      rw [splitToken_cons_of_unmatched notHere, ih notLater]
      rfl

/-! ## Tokens -/

/-- A word of which no proper beginning is an end. -/
structure Token (Letter : Type) where
  word : List Letter
  nonempty : word ≠ []
  unbordered : ∀ border ∈ word.inits, border <:+ word → border = [] ∨ border = word

namespace Token

variable (token : Token Letter)

section

omit [DecidableEq Letter]

/-- A token at the beginning of a text with another one further on. -/
theorem eq_nil_of_prefix {before rest : List Letter} (absent : ¬ token.word <:+: before)
    (isPrefix : token.word <+: before ++ (token.word ++ rest)) : before = [] := by
  obtain ⟨tail, whole⟩ := isPrefix
  rcases List.append_eq_append_iff.mp whole with ⟨more, rfl, _⟩ | ⟨border, split, later⟩
  · exact absurd (List.prefix_append _ _).isInfix absent
  · have isSuffix : border <:+ token.word := ⟨before, split.symm⟩
    have isBeginning : border <+: token.word :=
      List.prefix_of_prefix_length_le ⟨tail, later.symm⟩ (List.prefix_append _ _)
        isSuffix.length_le
    rcases token.unbordered border ((List.mem_inits _ _).mpr isBeginning) isSuffix with rfl | rfl
    · rw [List.append_nil] at split
      exact absurd (split ▸ List.infix_rfl) absent
    · exact List.self_eq_append_left.mp split

/-- The first occurrence. -/
theorem exists_first {text : List Letter} (occurs : token.word <:+: text) :
    ∃ before rest, text = before ++ (token.word ++ rest) ∧ ¬ token.word <:+: before := by
  induction text with
  | nil => exact absurd (List.infix_nil.mp occurs) token.nonempty
  | cons c text ih =>
      rcases List.infix_cons_iff.mp occurs with ⟨rest, here⟩ | later
      · refine ⟨[], rest, here.symm, ?_⟩
        intro empty
        exact token.nonempty (List.infix_nil.mp empty)
      · by_cases here : token.word <+: c :: text
        · obtain ⟨rest, whole⟩ := here
          refine ⟨[], rest, whole.symm, ?_⟩
          intro empty
          exact token.nonempty (List.infix_nil.mp empty)
        · obtain ⟨before, rest, rfl, absent⟩ := ih later
          refine ⟨c :: before, rest, rfl, ?_⟩
          intro inside
          rcases List.infix_cons_iff.mp inside with ⟨tail, whole⟩ | below
          · apply here
            refine ⟨tail ++ (token.word ++ rest), ?_⟩
            rw [← List.append_assoc, whole]
            rfl
          · exact absent below

/-- A token after a word without tokens and a letter that tokens do not have. -/
theorem exists_beyond {name before rest later : List Letter} {c : Letter}
    (absent : ¬ token.word <:+: name) (foreign : c ∉ token.word)
    (whole : name ++ c :: later = before ++ (token.word ++ rest)) :
    ∃ tail, before = name ++ c :: tail := by
  rcases List.append_eq_append_iff.mp whole with ⟨gap, rfl, split⟩ | ⟨part, rfl, split⟩
  · cases gap with
    | nil =>
        obtain ⟨first, letters, isWord⟩ := List.exists_cons_of_ne_nil token.nonempty
        rw [List.nil_append, isWord, List.cons_append] at split
        exact absurd (isWord ▸ (List.cons.inj split).1 ▸ List.mem_cons_self) foreign
    | cons head tail => exact ⟨tail, by rw [(List.cons.inj split).1]⟩
  · rcases List.append_eq_append_iff.mp split with ⟨more, rfl, _⟩ | ⟨ending, isWord, tail⟩
    · refine absurd ?_ absent
      exact (List.prefix_append _ _).isInfix.trans (List.suffix_append _ _).isInfix
    · cases ending with
      | nil =>
          rw [List.append_nil] at isWord
          exact absurd (isWord ▸ (List.suffix_append _ _).isInfix) absent
      | cons head letters =>
          have same : c = head := (List.cons.inj tail).1
          exact absurd (isWord ▸ List.mem_append_right _ (same ▸ List.mem_cons_self)) foreign

end

/-- The text is cut at its first token. -/
theorem splitToken_append {before : List Letter} (absent : ¬ token.word <:+: before)
    (rest : List Letter) :
    splitToken token.word (before ++ (token.word ++ rest)) =
      before :: splitToken token.word rest := by
  induction before with
  | nil => exact splitToken_of_prefix token.nonempty rest
  | cons c before ih =>
      have notHere : ¬ token.word <+: c :: (before ++ (token.word ++ rest)) := by
        intro here
        exact List.cons_ne_nil _ _ (token.eq_nil_of_prefix absent here)
      have notLater : ¬ token.word <:+: before := fun later =>
        absent (later.trans (List.suffix_cons c before).isInfix)
      rw [List.cons_append, splitToken_cons_of_unmatched notHere, ih notLater]
      rfl

/-- The first piece is the text before the first token, or all of it. -/
theorem splitToken_cases (text : List Letter) :
    ∃ piece pieces, splitToken token.word text = piece :: pieces ∧
      ¬ token.word <:+: piece ∧
      (piece = text ∨ ∃ rest, text = piece ++ (token.word ++ rest)) := by
  by_cases occurs : token.word <:+: text
  · obtain ⟨before, rest, rfl, absent⟩ := token.exists_first occurs
    exact ⟨before, _, token.splitToken_append absent rest, absent, Or.inr ⟨rest, rfl⟩⟩
  · exact ⟨text, [], splitToken_of_absent occurs, occurs, Or.inl rfl⟩

end Token

/-! ## Separators -/

/-- Texts without the separator, joined and split again, are read back in their order.  Nothing
is read from the empty text that no texts at all leave. -/
theorem filterMap_splitOn_intercalate {Value : Type} {separator : Letter}
    {print : Value → List Letter} {parse : List Letter → Option Value} {values : List Value}
    (unseparated : ∀ value ∈ values, separator ∉ print value)
    (readBack : ∀ value ∈ values, parse (print value) = some value) (empty : parse [] = none) :
    (([separator].intercalate (values.map print)).splitOn separator).filterMap parse = values := by
  by_cases nothing : values = []
  · rw [nothing, List.map_nil, List.intercalate_nil, List.splitOn_nil]
    simp [empty]
  · have pieces : ([separator].intercalate (values.map print)).splitOn separator =
        values.map print :=
      List.splitOn_intercalate separator (List.forall_mem_map.mpr unseparated)
        fun empty => nothing (List.map_eq_nil_iff.mp empty)
    rw [pieces, List.filterMap_map]
    exact (List.filterMap_congr readBack).trans List.filterMap_some

end ScaphandreFormal.Foundation
