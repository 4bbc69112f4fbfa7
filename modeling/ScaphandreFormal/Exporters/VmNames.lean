import Mathlib.Data.List.TakeWhile
import ScaphandreFormal.Foundation.Tokens
import ScaphandreFormal.Sensors.Attribution
import ScaphandreFormal.Exporters.MetricGenerator
import ScaphandreFormal.Exporters.Qemu

/-!
# The names of virtual machines

The label `vmname` is read by `filter_qemu_cmdline` in the command line run together,
the name of the folder exported to the guest by `get_vm_name_from_cmdline` in the list of
arguments.  The first has a grammar of its own; the two give one name where the text after
the first `guest=` begins like the argument and has a comma where the argument is cut.
-/

namespace ScaphandreFormal.Exporters

open Foundation Sensors

def guestToken : Token Char where
  word := "guest=".toList
  nonempty := by decide
  unbordered := by decide

/-! ## The grammar of `filter_qemu_cmdline` -/

/-- `filter_qemu_cmdline` with its pieces in vectors that are indexed. -/
def filterQemuCmdlineIndexed (cmdline : Text) : Except Panic (Option Text) :=
  if "qemu-system".toList <:+: cmdline ∧ "guest=".toList <:+: cmdline then do
    let vmname := (splitToken "guest=".toList cmdline).map fun x => x.splitOn ','
    let second ← indexed vmname 1
    let name ← indexed second 0
    match second.length, name.isEmpty with
    | 1, _ => .ok none
    | _, true => .ok none
    | _, false => .ok (some name)
  else .ok none

/-- A name between the first token and a comma. -/
structure IsVmName (cmdline name : Text) : Prop where
  system : "qemu-system".toList <:+: cmdline
  nonempty : name ≠ []
  noComma : ',' ∉ name
  noToken : ¬ "guest=".toList <:+: name
  written : ∃ a b, cmdline = a ++ ("guest=".toList ++ (name ++ ',' :: b)) ∧
    ¬ "guest=".toList <:+: a


theorem cutAt_of_absent {pattern text : Text} (absent : ¬ pattern <:+: text) :
    cutAt pattern text = none := by
  induction text with
  | nil => rfl
  | cons c rest ih =>
      have notHere : ¬ pattern <+: c :: rest := fun here => absent here.isInfix
      have notLater : ¬ pattern <:+: rest := fun later =>
        absent (later.trans (List.suffix_cons c rest).isInfix)
      rw [cutAt, if_neg notHere, ih notLater]
      rfl

theorem cutAt_first (token : Token Char) {before : Text} (absent : ¬ token.word <:+: before)
    (rest : Text) :
    cutAt token.word (before ++ (token.word ++ rest)) = some (before, rest) := by
  induction before with
  | nil =>
      obtain ⟨c, letters, isWord⟩ := List.exists_cons_of_ne_nil token.nonempty
      have isPrefix : token.word <+: token.word ++ rest := List.prefix_append _ _
      have dropped : (token.word ++ rest).drop token.word.length = rest := List.drop_left
      rw [List.nil_append]
      rw [isWord, List.cons_append] at isPrefix dropped
      rw [isWord, List.cons_append, cutAt, if_pos isPrefix, dropped]
  | cons c before ih =>
      have notHere : ¬ token.word <+: c :: (before ++ (token.word ++ rest)) := by
        intro here
        exact List.cons_ne_nil _ _ (token.eq_nil_of_prefix absent here)
      have notLater : ¬ token.word <:+: before := fun later =>
        absent (later.trans (List.suffix_cons c before).isInfix)
      rw [List.cons_append, cutAt, if_neg notHere, ih notLater]
      rfl

/-- The piece that is looked at is the one at the index 1. -/
theorem secondPiece_eq (cmdline : Text) :
    secondPiece cmdline = (splitToken guestToken.word cmdline)[1]? := by
  by_cases occurs : guestToken.word <:+: cmdline
  · obtain ⟨before, rest, rfl, absent⟩ := guestToken.exists_first occurs
    have cut : cutAt "guest=".toList (before ++ (guestToken.word ++ rest)) =
        some (before, rest) := cutAt_first guestToken absent rest
    rw [guestToken.splitToken_append absent, List.getElem?_cons_succ, secondPiece, cut]
    by_cases again : guestToken.word <:+: rest
    · obtain ⟨piece, later, rfl, clear⟩ := guestToken.exists_first again
      have cutAgain : cutAt "guest=".toList (piece ++ (guestToken.word ++ later)) =
          some (piece, later) := cutAt_first guestToken clear later
      rw [guestToken.splitToken_append clear, Option.map_some, cutAgain]
      rfl
    · have uncut : cutAt "guest=".toList rest = none := cutAt_of_absent again
      rw [splitToken_of_absent again, Option.map_some, uncut]
      rfl
  · have uncut : cutAt "guest=".toList cmdline = none := cutAt_of_absent occurs
    rw [splitToken_of_absent occurs, secondPiece, uncut]
    rfl

/-- The name a piece begins with, when a comma follows it. -/
def pieceName (piece : Text) : Option Text :=
  match piece.splitOn ',' with
  | vmname :: _ :: _ => if vmname.isEmpty then none else some vmname
  | _ => none

theorem filterQemuCmdline_of_piece {cmdline piece : Text}
    (system : "qemu-system".toList <:+: cmdline) (isPiece : secondPiece cmdline = some piece) :
    filterQemuCmdline cmdline = pieceName piece := by
  unfold filterQemuCmdline
  rw [if_pos system, isPiece]
  rfl

theorem pieceName_of_absent {piece : Text} (absent : ',' ∉ piece) : pieceName piece = none := by
  rw [pieceName, List.splitOn_eq_singleton absent]

theorem splitOn_cut {name : Text} (noComma : ',' ∉ name) (rest : Text) :
    (name ++ ',' :: rest).splitOn ',' = name :: rest.splitOn ',' := by
  rw [List.splitOn_append_cons_self, List.splitOn_eq_singleton noComma]
  rfl

theorem pieceName_cut {name : Text} (noComma : ',' ∉ name) (rest : Text) :
    pieceName (name ++ ',' :: rest) = if name.isEmpty then none else some name := by
  obtain ⟨piece, pieces, split⟩ := List.exists_cons_of_ne_nil (List.splitOn_ne_nil ',' rest)
  rw [pieceName, splitOn_cut noComma, split]

theorem pieceName_eq_some_iff {piece name : Text} :
    pieceName piece = some name ↔ name ≠ [] ∧ ',' ∉ name ∧ name ++ [','] <+: piece := by
  constructor
  · intro isName
    by_cases comma : ',' ∈ piece
    · obtain ⟨first, rest, rfl, noComma⟩ := List.eq_append_cons_of_mem comma
      rw [pieceName_cut noComma] at isName
      cases first with
      | nil => cases isName
      | cons c letters =>
          cases isName
          refine ⟨List.cons_ne_nil _ _, noComma, rest, ?_⟩
          rw [List.append_assoc]
          rfl
    · rw [pieceName_of_absent comma] at isName
      cases isName
  · rintro ⟨nonempty, noComma, rest, rfl⟩
    rw [List.append_assoc, List.singleton_append, pieceName_cut noComma]
    rw [if_neg (by rwa [List.isEmpty_iff])]

/-- The indexed form returns what `filter_qemu_cmdline` is modelled to return. -/
theorem filterQemuCmdlineIndexed_eq (cmdline : Text) :
    filterQemuCmdlineIndexed cmdline = .ok (filterQemuCmdline cmdline) := by
  have second := secondPiece_eq cmdline
  by_cases system : "qemu-system".toList <:+: cmdline
  · by_cases occurs : guestToken.word <:+: cmdline
    · obtain ⟨before, rest, rfl, absent⟩ := guestToken.exists_first occurs
      obtain ⟨piece, pieces, split, _⟩ := guestToken.splitToken_cases rest
      rw [guestToken.splitToken_append absent, split] at second
      have vmname : splitToken "guest=".toList (before ++ (guestToken.word ++ rest)) =
          before :: piece :: pieces := by
        rw [← split]
        exact guestToken.splitToken_append absent rest
      obtain ⟨name, others, cut⟩ := List.exists_cons_of_ne_nil (List.splitOn_ne_nil ',' piece)
      rw [filterQemuCmdline_of_piece system second]
      unfold filterQemuCmdlineIndexed pieceName
      rw [if_pos ⟨system, occurs⟩, vmname]
      cases others with
      | nil =>
          simp only [List.map_cons, indexed, List.getElem?_cons_succ, List.getElem?_cons_zero, cut]
          rfl
      | cons other others =>
          simp only [List.map_cons, indexed, List.getElem?_cons_succ, List.getElem?_cons_zero, cut]
          cases name <;> rfl
    · rw [splitToken_of_absent occurs] at second
      have noPiece : secondPiece cmdline = none := second
      unfold filterQemuCmdlineIndexed filterQemuCmdline
      rw [if_neg fun both => occurs both.2, if_pos system, noPiece]
  · unfold filterQemuCmdlineIndexed filterQemuCmdline
    rw [if_neg fun both => system both.1, if_neg system]

/-- After the first token the name is looked for up to the next one. -/
theorem filterQemuCmdline_append {before rest name : Text}
    (system : "qemu-system".toList <:+: before ++ (guestToken.word ++ rest))
    (absent : ¬ guestToken.word <:+: before) :
    filterQemuCmdline (before ++ (guestToken.word ++ rest)) = some name ↔
      name ≠ [] ∧ ',' ∉ name ∧ ¬ guestToken.word <:+: name ∧ name ++ [','] <+: rest := by
  obtain ⟨piece, pieces, split, clear, whole⟩ := guestToken.splitToken_cases rest
  have isPiece : secondPiece (before ++ (guestToken.word ++ rest)) = some piece := by
    rw [secondPiece_eq, guestToken.splitToken_append absent, split]
    rfl
  rw [filterQemuCmdline_of_piece system isPiece, pieceName_eq_some_iff]
  have isBeginning : piece <+: rest := by
    rcases whole with rfl | ⟨later, rfl⟩
    · exact List.prefix_rfl
    · exact List.prefix_append _ _
  constructor
  · rintro ⟨nonempty, noComma, begins⟩
    have inside : name <+: piece := (List.prefix_append _ _).trans begins
    exact ⟨nonempty, noComma, fun token => clear (token.trans inside.isInfix),
      begins.trans isBeginning⟩
  · rintro ⟨nonempty, noComma, noToken, begins⟩
    refine ⟨nonempty, noComma, ?_⟩
    rcases whole with rfl | ⟨later, rfl⟩
    · exact begins
    · obtain ⟨tail, split⟩ := begins
      rw [List.append_assoc, List.singleton_append] at split
      obtain ⟨more, rfl⟩ := guestToken.exists_beyond noToken (by decide) split
      refine ⟨more, ?_⟩
      rw [List.append_assoc]
      rfl

theorem filterQemuCmdline_eq_some_iff (cmdline name : Text) :
    filterQemuCmdline cmdline = some name ↔ IsVmName cmdline name := by
  constructor
  · intro isName
    have system : "qemu-system".toList <:+: cmdline := by
      by_contra missing
      unfold filterQemuCmdline at isName
      rw [if_neg missing] at isName
      cases isName
    have occurs : guestToken.word <:+: cmdline := by
      by_contra missing
      have noPiece : secondPiece cmdline = none := by
        rw [secondPiece_eq, splitToken_of_absent missing]
        rfl
      unfold filterQemuCmdline at isName
      rw [if_pos system, noPiece] at isName
      cases isName
    obtain ⟨before, rest, rfl, absent⟩ := guestToken.exists_first occurs
    obtain ⟨nonempty, noComma, noToken, tail, rfl⟩ :=
      (filterQemuCmdline_append system absent).mp isName
    refine ⟨system, nonempty, noComma, noToken, before, tail, ?_, absent⟩
    rw [List.append_assoc]
    rfl
  · rintro ⟨system, nonempty, noComma, noToken, before, tail, rfl, absent⟩
    refine (filterQemuCmdline_append system absent).mpr ⟨nonempty, noComma, noToken, tail, ?_⟩
    rw [List.append_assoc]
    rfl

/-- `filter_qemu_cmdline` never indexes out of bounds, and it accepts its grammar, in which
a command line has one name at most. -/
theorem filterQemuCmdline_accepts_grammar (cmdline : Text) :
    filterQemuCmdlineIndexed cmdline = .ok (filterQemuCmdline cmdline) ∧
      (∀ name, filterQemuCmdlineIndexed cmdline = .ok (some name) ↔ IsVmName cmdline name) ∧
      ∀ name other, IsVmName cmdline name → IsVmName cmdline other → name = other := by
  refine ⟨filterQemuCmdlineIndexed_eq cmdline, ?_, ?_⟩
  · intro name
    rw [filterQemuCmdlineIndexed_eq, Except.ok.injEq]
    exact filterQemuCmdline_eq_some_iff cmdline name
  · intro name other isName isOther
    rw [← filterQemuCmdline_eq_some_iff] at isName isOther
    exact Option.some.inj (isName.symm.trans isOther)

/-! ## The two readers -/

/-- The letters at which an argument is not cut. -/
def uncut (c : Char) : Bool := c ≠ '=' && c ≠ ','

theorem headD_splitOn (separator : Char) (text : Text) :
    (text.splitOn separator).headD [] = text.takeWhile fun c => c ≠ separator := by
  induction text with
  | nil => rfl
  | cons c rest ih =>
      rw [List.splitOn_cons_eq_if_modifyHead, List.takeWhile_cons]
      by_cases same : c = separator
      · rw [if_pos (by rw [same]; exact beq_self_eq_true _), if_neg (by simpa using same)]
        rfl
      · obtain ⟨piece, pieces, split⟩ :=
          List.exists_cons_of_ne_nil (List.splitOn_ne_nil separator rest)
        rw [if_neg (by simpa using same), if_pos (by simpa using same), ← ih, split]
        rfl

theorem getD_zero (pieces : List Text) : pieces.getD 0 [] = pieces.headD [] := by
  cases pieces <;> rfl

/-- The name that is read in the first argument that starts with `guest=`. -/
theorem getVmNameFromCmdline_eq {skipped later : List Text} {argument : Text}
    (others : ∀ other ∈ skipped, ¬ "guest=".toList <+: other) :
    QemuExporter.getVmNameFromCmdline (skipped ++ ("guest=".toList ++ argument) :: later) =
      argument.takeWhile uncut := by
  induction skipped with
  | nil =>
      have isPrefix : "guest=".toList <+: "guest=".toList ++ argument := List.prefix_append _ _
      have split : ("guest=".toList ++ argument).splitOn '=' =
          "guest".toList :: argument.splitOn '=' := by
        have cut : "guest=".toList ++ argument = "guest".toList ++ '=' :: argument := rfl
        rw [cut, List.splitOn_append_cons_self]
        rfl
      rw [List.nil_append, QemuExporter.getVmNameFromCmdline, if_pos isPrefix, split,
        List.getD_cons_succ, getD_zero, headD_splitOn, headD_splitOn, List.takeWhile_takeWhile]
      congr 1
      funext c
      simp [uncut, Bool.and_comm]
  | cons other skipped ih =>
      rw [List.cons_append, QemuExporter.getVmNameFromCmdline,
        if_neg (others other List.mem_cons_self)]
      exact ih fun another member => others another (List.mem_cons_of_mem other member)

/-- If one of the readers finds a name, both find it. -/
def NamesAgree (args : List Text) : Prop :=
  (∃ name, filterQemuCmdline args.flatten = some name) ∨
      QemuExporter.getVmNameFromCmdline args ≠ [] →
    ∃ name, name ≠ [] ∧ filterQemuCmdline args.flatten = some name ∧
      QemuExporter.getVmNameFromCmdline args = name

/-- The text after the first `guest=` begins with the letters of the argument up to the
first at which it is cut, then a comma.  Or there are no such letters, and the text has no
comma before its next `guest=`. -/
def NamedAlike (text argument : Text) : Prop :=
  argument.takeWhile uncut ++ [','] <+: text ∨
    (∀ c ∈ argument.head?, c = '=' ∨ c = ',') ∧
      ∀ before after, text = before ++ ',' :: after → "guest=".toList <:+: before

/-- The command line run together at its first `guest=`, and the arguments at the first that
starts with it. -/
structure GuestArguments (args : List Text) (text argument : Text) : Prop where
  flat : ∃ before, args.flatten = before ++ ("guest=".toList ++ text) ∧
    ¬ "guest=".toList <:+: before
  listed : ∃ skipped later, args = skipped ++ ("guest=".toList ++ argument) :: later ∧
    ∀ other ∈ skipped, ¬ "guest=".toList <+: other

theorem exists_guestArguments {args : List Text}
    (starts : ∃ arg ∈ args, "guest=".toList <+: arg) :
    ∃ text argument, GuestArguments args text argument := by
  have found : (args.find? fun arg => "guest=".toList <+: arg).isSome := by
    rw [List.find?_isSome]
    obtain ⟨arg, member, isPrefix⟩ := starts
    exact ⟨arg, member, decide_eq_true isPrefix⟩
  obtain ⟨first, isFirst⟩ := Option.isSome_iff_exists.mp found
  obtain ⟨isPrefix, skipped, later, rfl, others⟩ := List.find?_eq_some_iff_append.mp isFirst
  obtain ⟨argument, rfl⟩ := of_decide_eq_true isPrefix
  have occurs : guestToken.word <:+:
      (skipped ++ ("guest=".toList ++ argument) :: later).flatten := by
    refine List.IsInfix.trans (List.prefix_append _ argument).isInfix ?_
    exact List.infix_of_mem_flatten (List.mem_append_right _ List.mem_cons_self)
  obtain ⟨before, text, flat, absent⟩ := guestToken.exists_first occurs
  refine ⟨text, argument, ⟨before, flat, absent⟩, skipped, later, rfl, ?_⟩
  intro other member isGuest
  have skips := others other member
  rw [decide_eq_true isGuest] at skips
  cases skips

theorem takeWhile_uncut_eq_nil_iff (argument : Text) :
    argument.takeWhile uncut = [] ↔ ∀ c ∈ argument.head?, c = '=' ∨ c = ',' := by
  cases argument with
  | nil => simp
  | cons c rest => simp [List.takeWhile_cons, uncut, or_iff_not_imp_left]

theorem not_mem_takeWhile_uncut {argument : Text} {c : Char} (cut : uncut c = false) :
    c ∉ argument.takeWhile uncut := by
  intro member
  rw [List.mem_takeWhile_imp member] at cut
  cases cut

theorem exists_name_before_comma (front after : Text) :
    ∃ name, name <+: front ∧ ',' ∉ name ∧ name ++ [','] <+: front ++ ',' :: after := by
  induction front with
  | nil => exact ⟨[], List.prefix_rfl, List.not_mem_nil, after, rfl⟩
  | cons c front ih =>
      by_cases comma : c = ','
      · rw [comma]
        exact ⟨[], List.nil_prefix, List.not_mem_nil, front ++ ',' :: after, rfl⟩
      · obtain ⟨name, inside, noComma, begins⟩ := ih
        refine ⟨c :: name, List.cons_prefix_cons.mpr ⟨rfl, inside⟩, ?_,
          List.cons_prefix_cons.mpr ⟨rfl, begins⟩⟩
        rw [List.mem_cons, not_or]
        exact ⟨fun same => comma same.symm, noComma⟩

theorem eq_nil_of_comma {name text : Text} (comma : [','] <+: text) (noComma : ',' ∉ name)
    (begins : name ++ [','] <+: text) : name = [] := by
  obtain ⟨rest, rfl⟩ := comma
  cases name with
  | nil => rfl
  | cons c letters =>
      have first : c = ',' := (List.cons_prefix_cons.mp begins).1
      exact absurd (first ▸ List.mem_cons_self) noComma

/-- The two readers after the first `guest=` and in the argument. -/
theorem namesAgree_iff {args : List Text} {text argument : Text}
    (system : ∃ arg ∈ args, "qemu-system".toList <:+: arg)
    (guest : GuestArguments args text argument) :
    NamesAgree args ↔ NamedAlike text argument := by
  obtain ⟨⟨before, flat, absent⟩, skipped, later, listed, others⟩ := guest
  have whole : "qemu-system".toList <:+: before ++ (guestToken.word ++ text) := by
    obtain ⟨arg, member, inside⟩ := system
    have within := inside.trans (List.infix_of_mem_flatten member)
    rwa [flat] at within
  have exported : QemuExporter.getVmNameFromCmdline args = argument.takeWhile uncut := by
    rw [listed]
    exact getVmNameFromCmdline_eq others
  have label : ∀ name, filterQemuCmdline args.flatten = some name ↔
      name ≠ [] ∧ ',' ∉ name ∧ ¬ guestToken.word <:+: name ∧ name ++ [','] <+: text := by
    intro name
    rw [flat]
    exact filterQemuCmdline_append whole absent
  have noComma : ',' ∉ argument.takeWhile uncut := not_mem_takeWhile_uncut rfl
  have noToken : ¬ guestToken.word <:+: argument.takeWhile uncut := by
    intro token
    exact not_mem_takeWhile_uncut rfl (token.subset (by decide : '=' ∈ guestToken.word))
  unfold NamesAgree NamedAlike
  rw [exported, ← takeWhile_uncut_eq_nil_iff]
  constructor
  · intro agree
    by_cases empty : argument.takeWhile uncut = []
    · by_cases comma : [','] <+: text
      · refine Or.inl ?_
        rwa [empty]
      · refine Or.inr ⟨empty, ?_⟩
        -- A name before a comma would be the label, and nothing is exported.
        rintro front after rfl
        by_contra clear
        obtain ⟨name, inside, noComma, begins⟩ := exists_name_before_comma front after
        have nonempty : name ≠ [] := by
          rintro rfl
          exact comma begins
        have noToken : ¬ guestToken.word <:+: name := fun token =>
          clear (token.trans inside.isInfix)
        obtain ⟨_, same, _, rfl⟩ :=
          agree (Or.inl ⟨name, (label name).mpr ⟨nonempty, noComma, noToken, begins⟩⟩)
        exact same empty
    · obtain ⟨name, _, isLabel, same⟩ := agree (Or.inr empty)
      rw [same]
      exact Or.inl ((label name).mp isLabel).2.2.2
  · intro alike found
    rcases alike with begins | ⟨empty, behind⟩
    · by_cases empty : argument.takeWhile uncut = []
      · rcases found with ⟨name, isLabel⟩ | named
        · obtain ⟨nonempty, clear, _, isName⟩ := (label name).mp isLabel
          rw [empty] at begins
          exact absurd (eq_nil_of_comma begins clear isName) nonempty
        · exact absurd empty named
      · exact ⟨_, empty, (label _).mpr ⟨empty, noComma, noToken, begins⟩, rfl⟩
    · rcases found with ⟨name, isLabel⟩ | named
      · obtain ⟨_, _, clear, rest, whole⟩ := (label name).mp isLabel
        rw [List.append_assoc] at whole
        exact absurd (behind name rest whole.symm) clear
      · exact absurd empty named

/-- The label and the exported folder name one machine just where the command line, after
its first `guest=`, is like the first argument that starts with it. -/
theorem names_agree_iff_named_alike (args : List Text)
    (system : ∃ arg ∈ args, "qemu-system".toList <:+: arg)
    (starts : ∃ arg ∈ args, "guest=".toList <+: arg) :
    NamesAgree args ↔
      ∃ text argument, GuestArguments args text argument ∧ NamedAlike text argument := by
  constructor
  · intro agree
    obtain ⟨text, argument, guest⟩ := exists_guestArguments starts
    exact ⟨text, argument, guest, (namesAgree_iff system guest).mp agree⟩
  · rintro ⟨text, argument, guest, alike⟩
    exact (namesAgree_iff system guest).mpr alike

/-- An argument as `libvirt` writes it. -/
theorem names_agree_of_libvirt :
    NamesAgree (["/usr/bin/qemu-system-x86_64", "-name", "guest=fedora33,debug-threads=on",
      "-S"].map String.toList) :=
  (names_agree_iff_named_alike _
      ⟨"/usr/bin/qemu-system-x86_64".toList, by decide +kernel, by decide +kernel⟩
      ⟨"guest=fedora33,debug-threads=on".toList, by decide +kernel, by decide +kernel⟩).mpr
    ⟨"fedora33,debug-threads=on-S".toList, "fedora33,debug-threads=on".toList,
      ⟨⟨"/usr/bin/qemu-system-x86_64-name".toList, by decide +kernel, by decide +kernel⟩,
        ["/usr/bin/qemu-system-x86_64".toList, "-name".toList], ["-S".toList],
        by decide +kernel, by decide +kernel⟩,
      Or.inl (by decide +kernel)⟩

/-- An equals sign in the name is kept in the label and cuts the name of the folder. -/
theorem not_names_agree_of_equals :
    ¬ ∀ args : List Text, (∃ arg ∈ args, "qemu-system".toList <:+: arg) →
      (∃ arg ∈ args, "guest=".toList <+: arg) → NamesAgree args := by
  intro all
  have agree := all (["qemu-system-x86_64", "-name", "guest=a=b,debug-threads=on"].map
    String.toList) (by decide +kernel) (by decide +kernel)
  have label : filterQemuCmdline (["qemu-system-x86_64", "-name",
      "guest=a=b,debug-threads=on"].map String.toList).flatten = some "a=b".toList := by
    decide +kernel
  have folder : QemuExporter.getVmNameFromCmdline (["qemu-system-x86_64", "-name",
      "guest=a=b,debug-threads=on"].map String.toList) = "a".toList := by decide +kernel
  obtain ⟨name, _, isLabel, isFolder⟩ := agree (Or.inl ⟨_, label⟩)
  rw [label] at isLabel
  rw [folder, ← Option.some.inj isLabel] at isFolder
  exact absurd isFolder (by decide +kernel)

end ScaphandreFormal.Exporters
