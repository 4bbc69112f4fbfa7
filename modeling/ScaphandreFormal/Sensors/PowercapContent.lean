import ScaphandreFormal.Sensors.DiscoveryResult

/-!
# Powercap directories as the kernel writes them

A zone or domain of a control type is a folder named by the control type and its
numbers, with its name and a line feed in the file `name`.  What the discovery
takes from the path of such a folder depends on the base path: a line feed there
keeps every expression from matching, and a colon moves the pieces that the ids
are cut from.
-/

namespace ScaphandreFormal.Sensors.Powercap

open Foundation

/-! ## Splitting texts -/

/-- Text without the separator goes to the last piece. -/
theorem splitOn_append {Item : Type} [DecidableEq Item] (separator : Item) (text : List Item) :
    ∃ pieces last, text.splitOn separator = pieces ++ [last] ∧
      ∀ tail : List Item, separator ∉ tail →
        (text ++ tail).splitOn separator = pieces ++ [last ++ tail] := by
  induction text with
  | nil =>
      refine ⟨[], [], List.splitOn_nil separator, ?_⟩
      intro tail clear
      exact List.splitOn_eq_singleton clear
  | cons item rest ih =>
      obtain ⟨pieces, last, whole, extended⟩ := ih
      by_cases here : item = separator
      · subst here
        refine ⟨[] :: pieces, last, ?_, ?_⟩
        · rw [List.splitOn_cons_eq_if_modifyHead, if_pos (beq_self_eq_true item), whole]
          rfl
        · intro tail clear
          rw [List.cons_append, List.splitOn_cons_eq_if_modifyHead,
            if_pos (beq_self_eq_true item), extended tail clear]
          rfl
      · have other : ¬ (item == separator) = true := fun same => here (eq_of_beq same)
        cases pieces with
        | nil =>
            refine ⟨[], item :: last, ?_, ?_⟩
            · rw [List.splitOn_cons_eq_if_modifyHead, if_neg other, whole]
              rfl
            · intro tail clear
              rw [List.cons_append, List.splitOn_cons_eq_if_modifyHead, if_neg other,
                extended tail clear]
              rfl
        | cons piece pieces =>
            refine ⟨(item :: piece) :: pieces, last, ?_, ?_⟩
            · rw [List.splitOn_cons_eq_if_modifyHead, if_neg other, whole]
              rfl
            · intro tail clear
              rw [List.cons_append, List.splitOn_cons_eq_if_modifyHead, if_neg other,
                extended tail clear]
              rfl

/-- Each number after its colon. -/
def numbered (numbers : List Nat) : Text := numbers.flatMap fun n => ':' :: toText n

theorem not_mem_toText {c : Char} (other : c.isDigit = false) (n : Nat) : c ∉ toText n := by
  intro member
  rw [isDigit_of_mem_toText member] at other
  cases other

theorem splitOn_append_numbered (text : Text) (numbers : List Nat) :
    (text ++ numbered numbers).splitOn ':' = text.splitOn ':' ++ numbers.map toText := by
  induction numbers generalizing text with
  | nil => simp [numbered]
  | cons n rest ih =>
      have regroup : text ++ numbered (n :: rest) = text ++ ':' :: toText n ++ numbered rest := by
        simp [numbered]
      rw [regroup, ih, List.splitOn_append_cons_self,
        List.splitOn_eq_singleton (not_mem_toText (by decide) n), List.append_assoc]
      rfl

/-! ## The folders -/

/-- The control types of RAPL. -/
inductive Control where
  | msr
  | mmio
  deriving DecidableEq, Repr

def Control.text : Control → Text
  | .msr => "intel-rapl".toList
  | .mmio => "intel-rapl-mmio".toList

theorem Control.text_injective {control other : Control} (same : control.text = other.text) :
    control = other := by
  cases control <;> cases other
  · rfl
  · exact absurd same (by decide)
  · exact absurd same (by decide)
  · rfl

theorem Control.separated_text (control : Control) : '/' ∉ control.text := by
  cases control <;> decide

inductive ZoneName where
  | package (number : Nat)
  | psys
  deriving DecidableEq, Repr

def ZoneName.text : ZoneName → Text
  | .package number => "package-".toList ++ toText number
  | .psys => "psys".toList

/-- A zone of a control type or a domain of a zone, and its name. -/
inductive Kind where
  | zone (control : Control) (index : Nat) (name : ZoneName)
  | domain (control : Control) (parent index : Nat) (resource : DomainResource)
  deriving DecidableEq, Repr

namespace Kind

def control : Kind → Control
  | .zone control _ _ => control
  | .domain control _ _ _ => control

def numbers : Kind → List Nat
  | .zone _ index _ => [index]
  | .domain _ parent index _ => [parent, index]

def text : Kind → Text
  | .zone _ _ name => name.text
  | .domain _ _ _ resource => resource.text

/-- The name of the folder. -/
def component (kind : Kind) : Text := kind.control.text ++ numbered kind.numbers

theorem splitOn_component (kind : Kind) :
    kind.component.splitOn ':' = kind.control.text :: kind.numbers.map toText := by
  have single : kind.control.text.splitOn ':' = [kind.control.text] := by
    cases kind.control <;> decide
  rw [component, splitOn_append_numbered, single]
  rfl

theorem address_injective {kind other : Kind} (same : kind.component = other.component) :
    kind.control = other.control ∧ kind.numbers = other.numbers := by
  have pieces : kind.control.text :: kind.numbers.map toText =
      other.control.text :: other.numbers.map toText := by
    rw [← splitOn_component, ← splitOn_component, same]
  obtain ⟨sameText, sameNumbers⟩ := List.cons.inj pieces
  exact ⟨Control.text_injective sameText,
    List.map_injective_iff.mpr (fun _ _ => toText_injective) sameNumbers⟩

theorem separated_component (kind : Kind) : '/' ∉ kind.component := by
  intro member
  rcases List.mem_append.mp member with inControl | inNumbers
  · exact kind.control.separated_text inControl
  · obtain ⟨n, _, inNumber⟩ := List.mem_flatMap.mp inNumbers
    rcases List.mem_cons.mp inNumber with isColon | inDigits
    · cases isColon
    · exact not_mem_toText (by decide) n inDigits

end Kind

/-- A zone or domain with what is in its file `max_energy_range_uj`. -/
structure Entry where
  kind : Kind
  maxEnergyRangeUj : Option Text
  deriving DecidableEq, Repr

def Entry.folder (entry : Entry) : Folder where
  component := entry.kind.component
  name := some (entry.kind.text ++ ['\n'])
  maxEnergyRangeUj := entry.maxEnergyRangeUj

/-- A base path with any set of zones and domains. -/
structure Content where
  basePath : Text
  entries : List Entry
  distinct : (entries.map fun entry => (entry.kind.control, entry.kind.numbers)).Nodup
  fits : ∀ entry ∈ entries, ∀ n ∈ entry.kind.numbers, n < 2 ^ 16

namespace Content

def directory (content : Content) : Directory where
  basePath := content.basePath
  folders := content.entries.map Entry.folder
  distinct := by
    have apart := List.pairwise_map.mp content.distinct
    rw [List.map_map]
    refine List.pairwise_map.mpr (apart.imp ?_)
    intro entry other differ same
    obtain ⟨sameControl, sameNumbers⟩ := Kind.address_injective same
    exact differ (Prod.ext sameControl sameNumbers)
  separated := by
    intro folder member
    obtain ⟨entry, _, rfl⟩ := List.mem_map.mp member
    exact entry.kind.separated_component

/-! ## What the expressions match -/

variable {content : Content} {entry : Entry}

/-- What `Path::join` puts between the base path and the name of a folder. -/
def slash (content : Content) : Text :=
  if content.basePath.getLast? = some '/' then [] else ['/']

theorem path_eq (based : content.basePath ≠ []) (entry : Entry) :
    content.directory.path entry.folder =
      content.basePath ++ content.slash ++ entry.kind.component := by
  change joinPath content.basePath entry.kind.component = _
  unfold joinPath slash
  rw [if_neg based]
  split <;> simp

theorem reverse_parent (content : Content) :
    ∃ rest, (content.basePath ++ content.slash).reverse = '/' :: rest := by
  unfold slash
  split
  · rename_i slashed
    obtain ⟨front, whole⟩ := List.getLast?_eq_some_iff.mp slashed
    exact ⟨front.reverse, by rw [List.append_nil, whole, List.reverse_concat]⟩
  · exact ⟨content.basePath.reverse, List.reverse_concat⟩

theorem mem_parent (content : Content) {c : Char} (other : c ≠ '/') :
    c ∈ content.basePath ++ content.slash ↔ c ∈ content.basePath := by
  unfold slash
  split
  · rw [List.append_nil]
  · simp [other]

theorem isDecimalDigit_of_isDigit {c : Char} (digit : c.isDigit = true) :
    isDecimalDigit c = true := by
  have bounds : 48 ≤ c.toNat ∧ c.toNat ≤ 57 := by
    simpa [Char.isDigit, UInt32.le_iff_toNat_le] using digit
  refine List.any_eq_true.mpr ⟨0x30, List.mem_cons_self, ?_⟩
  simp only [Bool.and_eq_true, decide_eq_true_eq]
  omega

theorem all_digits (numbers : List Nat) :
    (numbers.map toText).all
      (fun digits => decide (digits ≠ []) && digits.all isDecimalDigit) = true := by
  rw [List.all_eq_true]
  intro digits member
  obtain ⟨n, _, rfl⟩ := List.mem_map.mp member
  have every : (toText n).all isDecimalDigit = true :=
    List.all_eq_true.mpr fun c inText => isDecimalDigit_of_isDigit (isDigit_of_mem_toText inText)
  rw [every, decide_eq_true (toText_ne_nil n)]
  rfl

/-- A folder is matched by the expression of its control type and depth, unless there is a line
feed in the base path. -/
theorem isFolder_path (based : content.basePath ≠ []) (entry : Entry) (name : Text)
    (count : Nat) :
    isFolder name count (content.directory.path entry.folder) = true ↔
      '\n' ∉ content.basePath ∧ entry.kind.control.text = name ∧
        entry.kind.numbers.length = count := by
  obtain ⟨rest, parent⟩ := content.reverse_parent
  have plain : ∀ c ∈ entry.kind.component.reverse, decide (c ≠ '/') = true := by
    intro c member
    refine decide_eq_true ?_
    rintro rfl
    exact entry.kind.separated_component (List.mem_reverse.mp member)
  have taken : (entry.kind.component.reverse ++ '/' :: rest).takeWhile (· ≠ '/') =
      entry.kind.component.reverse := by
    rw [List.takeWhile_append_of_pos plain, List.takeWhile_cons_of_neg (by decide),
      List.append_nil]
  have dropped : (entry.kind.component.reverse ++ '/' :: rest).dropWhile (· ≠ '/') =
      '/' :: rest := by
    rw [List.dropWhile_append_of_pos plain, List.dropWhile_cons_of_neg (by decide)]
  have noLineFeed : ('/' :: rest).all (· ≠ '\n') = true ↔ '\n' ∉ content.basePath := by
    rw [← content.mem_parent (by decide : '\n' ≠ '/'), ← List.mem_reverse, parent]
    simp only [List.all_eq_true, decide_eq_true_eq]
    exact ⟨fun every inside => every _ inside rfl, fun clear c inside same => clear (same ▸ inside)⟩
  unfold isFolder
  simp only
  rw [path_eq based, List.reverse_append, parent, taken, dropped, List.reverse_reverse,
    Kind.splitOn_component]
  simp only [Bool.and_eq_true, decide_eq_true_eq, noLineFeed, List.length_map, all_digits]
  constructor
  · rintro ⟨⟨_, clear⟩, ⟨sameName, sameCount⟩, _⟩
    exact ⟨clear, sameName, sameCount⟩
  · rintro ⟨clear, sameName, sameCount⟩
    exact ⟨⟨List.cons_ne_nil _ _, clear⟩, ⟨sameName, sameCount⟩, trivial⟩

/-! ## What the ids are cut from -/

theorem splitOn_path (based : content.basePath ≠ []) (entry : Entry) :
    ∃ pieces last, content.basePath.splitOn ':' = pieces ++ [last] ∧
      (content.directory.path entry.folder).splitOn ':' =
        pieces ++ (last ++ (content.slash ++ entry.kind.control.text)) ::
          entry.kind.numbers.map toText := by
  obtain ⟨pieces, last, whole, extended⟩ := splitOn_append ':' content.basePath
  have clear : ':' ∉ content.slash ++ entry.kind.control.text := by
    unfold slash
    cases entry.kind.control <;> split <;> decide
  refine ⟨pieces, last, whole, ?_⟩
  rw [path_eq based, Kind.component, ← List.append_assoc, splitOn_append_numbered,
    List.append_assoc, extended _ clear, List.append_assoc]
  rfl

/-- Without a colon in the base path the numbers of the folder are cut out. -/
theorem pieceOf_plain (based : content.basePath ≠ []) (plain : ':' ∉ content.basePath)
    {position n : Nat} (there : entry.kind.numbers[position]? = some n) (fits : n < 2 ^ 16) :
    pieceOf (content.directory.path entry.folder) (position + 1) = .ok n := by
  obtain ⟨pieces, last, whole, split⟩ := splitOn_path based entry
  have single := List.splitOn_eq_singleton plain
  rw [whole] at single
  have none : pieces = [] := by
    cases pieces with
    | nil => rfl
    | cons piece more =>
        have short := congrArg List.length single
        simp at short
  subst none
  unfold pieceOf
  rw [split, List.nil_append, List.getElem?_cons_succ, List.getElem?_map, there]
  simp only [Option.map_some, parseU16_toText fits]

/-- The number between two colons of the base path. -/
def baseNumber (content : Content) (position : Nat) : Option Nat :=
  (content.basePath.splitOn ':').dropLast[position]?.bind parseU16

/-- With colons in the base path, numbers of the base path are cut out instead. -/
theorem pieceOf_colon (based : content.basePath ≠ []) {position : Nat}
    (within : position < (content.basePath.splitOn ':').length) (entry : Entry) (n : Nat) :
    pieceOf (content.directory.path entry.folder) position = .ok n ↔
      content.baseNumber position = some n := by
  obtain ⟨pieces, last, whole, split⟩ := splitOn_path based entry
  rw [whole, List.length_append, List.length_singleton] at within
  unfold pieceOf baseNumber
  rw [split, whole, List.dropLast_concat]
  by_cases inside : position < pieces.length
  · rw [List.getElem?_append_left inside, List.getElem?_eq_getElem inside, Option.bind_some]
    simp only
    cases parseU16 pieces[position] <;> simp
  · have here : position = pieces.length := by omega
    subst here
    have dash : '-' ∈ last ++ (content.slash ++ entry.kind.control.text) := by
      refine List.mem_append_right _ (List.mem_append_right _ ?_)
      cases entry.kind.control <;> decide
    rw [List.getElem?_append_right (Nat.le_refl _), Nat.sub_self, List.getElem?_cons_zero,
      List.getElem?_eq_none (Nat.le_refl _)]
    simp only [parseU16_eq_none dash (by decide) (by decide), Option.bind_none]
    simp

theorem length_splitOn_of_colon (colon : ':' ∈ content.basePath) :
    1 < (content.basePath.splitOn ':').length := by
  obtain ⟨before, after, whole⟩ := List.append_of_mem colon
  rw [whole, List.splitOn_append_cons_self, List.length_append]
  have first := List.length_pos_of_ne_nil (List.splitOn_ne_nil ':' before)
  have second := List.length_pos_of_ne_nil (List.splitOn_ne_nil ':' after)
  omega

theorem length_splitOn_of_baseNumber {position n : Nat}
    (read : content.baseNumber position = some n) :
    position + 1 < (content.basePath.splitOn ':').length := by
  unfold baseNumber at read
  obtain ⟨piece, found, _⟩ := Option.bind_eq_some_iff.mp read
  obtain ⟨inside, _⟩ := List.getElem?_eq_some_iff.mp found
  rw [List.length_dropLast] at inside
  omega

/-- The number at the position of the path split at colons: one of the base path where it has
colons, else one of the folder. -/
def cut (content : Content) (entry : Entry) (position : Nat) : Option Nat :=
  if ':' ∈ content.basePath then content.baseNumber position
  else entry.kind.numbers[position - 1]?

theorem pieceOf_one (based : content.basePath ≠ []) (member : entry ∈ content.entries) (n : Nat) :
    pieceOf (content.directory.path entry.folder) 1 = .ok n ↔ content.cut entry 1 = some n := by
  unfold cut
  split
  · rename_i colon
    exact pieceOf_colon based (length_splitOn_of_colon colon) entry n
  · rename_i plain
    have first : ∃ number, entry.kind.numbers[0]? = some number := by
      cases entry.kind with
      | zone control index name => exact ⟨index, rfl⟩
      | domain control parent index resource => exact ⟨parent, rfl⟩
    obtain ⟨number, there⟩ := first
    have fits := content.fits entry member number (List.mem_of_getElem? there)
    rw [pieceOf_plain based plain there fits, there]
    simp

theorem pieceOf_two (based : content.basePath ≠ []) (member : entry ∈ content.entries)
    (deep : entry.kind.numbers.length = 2) {id : Nat} (first : content.cut entry 1 = some id)
    (n : Nat) :
    pieceOf (content.directory.path entry.folder) 2 = .ok n ↔ content.cut entry 2 = some n := by
  unfold cut at first ⊢
  split at first
  · rename_i colon
    rw [if_pos colon]
    exact pieceOf_colon based (length_splitOn_of_baseNumber first) entry n
  · rename_i plain
    rw [if_neg plain]
    have second : ∃ number, entry.kind.numbers[1]? = some number :=
      ⟨entry.kind.numbers[1], List.getElem?_eq_getElem (by omega)⟩
    obtain ⟨number, there⟩ := second
    have fits := content.fits entry member number (List.mem_of_getElem? there)
    rw [pieceOf_plain based plain there fits, there]
    simp

/-! ## What the folders ask for -/

theorem isFolder_zone (based : content.basePath ≠ []) (entry : Entry) (control : Control) :
    isFolder control.text 1 (content.directory.path entry.folder) = true ↔
      '\n' ∉ content.basePath ∧ ∃ index name, entry.kind = .zone control index name := by
  rw [isFolder_path based]
  refine and_congr_right fun _ => ?_
  cases entry.kind with
  | zone other index name =>
      constructor
      · rintro ⟨same, _⟩
        exact ⟨index, name, by rw [← Control.text_injective same]; rfl⟩
      · rintro ⟨_, _, same⟩
        cases same
        exact ⟨rfl, rfl⟩
  | domain other parent index resource =>
      constructor
      · rintro ⟨_, deep⟩
        cases deep
      · rintro ⟨_, _, same⟩
        cases same

theorem isFolder_domain (based : content.basePath ≠ []) (entry : Entry) (control : Control) :
    isFolder control.text 2 (content.directory.path entry.folder) = true ↔
      '\n' ∉ content.basePath ∧
        ∃ parent index resource, entry.kind = .domain control parent index resource := by
  rw [isFolder_path based]
  refine and_congr_right fun _ => ?_
  cases entry.kind with
  | zone other index name =>
      constructor
      · rintro ⟨_, deep⟩
        cases deep
      · rintro ⟨_, _, _, same⟩
        cases same
  | domain other parent index resource =>
      constructor
      · rintro ⟨same, _⟩
        exact ⟨parent, index, resource, by rw [← Control.text_injective same]; rfl⟩
      · rintro ⟨_, _, _, same⟩
        cases same
        exact ⟨rfl, rfl⟩

theorem parse_trim_text (resource : DomainResource) :
    DomainResource.parse (trim (resource.text ++ ['\n'])) = .ok resource := by
  cases resource <;> decide

/-- With a line feed in the base path nothing is matched. -/
theorem action_of_lineFeed (based : content.basePath ≠ []) (lineFeed : '\n' ∈ content.basePath)
    (entry : Entry) : content.directory.action entry.folder = .ok .nothing := by
  have never : ∀ name count,
      isFolder name count (content.directory.path entry.folder) = false := by
    intro name count
    rw [Bool.eq_false_iff]
    intro isMatched
    exact ((isFolder_path based entry name count).mp isMatched).1 lineFeed
  unfold Directory.action
  simp only [isDomainFolder, isSocketMmioFolder, isDomainMmioFolder, never]
  rfl

/-- Else a folder asks for what its kind says. -/
theorem action_entry (based : content.basePath ≠ []) (clear : '\n' ∉ content.basePath)
    (entry : Entry) :
    content.directory.action entry.folder =
      match entry.kind with
      | .zone .msr _ _ => .ok .nothing
      | .zone .mmio _ _ =>
          (pieceOf (content.directory.path entry.folder) 1).map FolderAction.socketMmio
      | .domain .msr _ _ resource =>
          (pieceOf (content.directory.path entry.folder) 1).bind fun socketId =>
            (pieceOf (content.directory.path entry.folder) 2).map fun domainId =>
              .domain socketId domainId (some resource)
      | .domain .mmio _ _ _ =>
          (pieceOf (content.directory.path entry.folder) 1).map FolderAction.domainMmio := by
  have matching : ∀ control count,
      isFolder (Control.text control) count (content.directory.path entry.folder) =
        decide (entry.kind.control = control ∧ entry.kind.numbers.length = count) := by
    intro control count
    rw [Bool.eq_iff_iff, isFolder_path based, decide_eq_true_eq]
    constructor
    · rintro ⟨_, same, deep⟩
      exact ⟨Control.text_injective same, deep⟩
    · rintro ⟨same, deep⟩
      exact ⟨clear, by rw [same], deep⟩
  have domain := matching .msr 2
  have socketMmio := matching .mmio 1
  have domainMmio := matching .mmio 2
  change isDomainFolder _ = _ at domain
  change isSocketMmioFolder _ = _ at socketMmio
  change isDomainMmioFolder _ = _ at domainMmio
  unfold Directory.action
  simp only [domain, socketMmio, domainMmio]
  cases kind : entry.kind with
  | zone control index name =>
      cases control with
      | msr => rfl
      | mmio =>
          cases pieceOf (content.directory.path entry.folder) 1 <;> rfl
  | domain control parent index resource =>
      cases control with
      | msr =>
          have named : entry.folder.name = some (resource.text ++ ['\n']) := by
            rw [Entry.folder, kind]
            rfl
          simp only [Kind.control, Kind.numbers, List.length_cons, List.length_nil, true_and,
            decide_true, if_true, named, parse_trim_text]
          cases pieceOf (content.directory.path entry.folder) 1 with
          | error panic => rfl
          | ok socketId =>
              cases pieceOf (content.directory.path entry.folder) 2 <;> rfl
      | mmio =>
          cases pieceOf (content.directory.path entry.folder) 1 <;> rfl

end Content

end ScaphandreFormal.Sensors.Powercap
