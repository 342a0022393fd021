import SQLid.FileSystem

/-!
# The schema file

What `loadFile` reads from the text `createTable` writes, and when the lines of the table
it describes are laid out soundly.
-/
namespace SQLid
open Bytes (Text)
open CppText (str words IStream IsWord Spaced)

/-- The columns with their offsets, which wrap like the sums of the program. -/
def columnsFrom : Nat → List (Text × ColumnType × Nat) → List Column
  | _, [] => []
  | offset, (name, type, size) :: columns =>
      ⟨name, offset, type, size⟩ :: columnsFrom (sizeAdd offset size) columns

/-- The schema of these columns. -/
def schemaOf (columns : List (Text × ColumnType × Nat)) : TabbleInfo where
  lineLength := columns.foldl (fun n c => sizeAdd n c.2.2) 1
  columnsNumber := columns.length
  columns := columnsFrom 1 columns
  columnsMap := columnsMapFrom 0 (columnsFrom 1 columns) []

/-- A column as `createTable` may have it: only a string has a size of its own. -/
structure Declared (c : Text × ColumnType × Nat) : Prop where
  name : IsWord c.1
  size_lt : c.2.2 < 2 ^ 64
  size : c.2.1 ≠ .string → c.2.2 = typeSizes c.2.1

theorem typeSizes_lt (type : ColumnType) : typeSizes type < 2 ^ 64 := by
  cases type <;> decide

theorem columnType_declared {word : Text} {type : ColumnType} {size : Nat}
    (h : DataBase.columnType word = .ok (type, size)) :
    size < 2 ^ 64 ∧ (type ≠ .string → size = typeSizes type) := by
  unfold DataBase.columnType at h
  split at h
  · cases hnum : CppText.stoul ((word.drop 7).take (word.length - 8)) with
    | error e =>
        rw [hnum] at h
        cases h
    | ok n =>
        rw [hnum] at h
        cases h
        exact ⟨CppText.stoul_lt hnum, fun hne => absurd rfl hne⟩
  · split at h
    · cases h
    · cases h
      exact ⟨typeSizes_lt _, fun _ => rfl⟩

/-- The words of the command that name a type. -/
def typeWords : List Text → List Text
  | _ :: word :: ws => word :: typeWords ws
  | _ => []

/-- One column for each pair of words. -/
theorem parseColumns_ok {ws : List Text} {columns : List (Text × ColumnType × Nat)}
    (h : DataBase.parseColumns ws = .ok columns) :
    List.Forall₂ (fun word c => c.1 ∈ ws ∧ DataBase.columnType word = .ok c.2) (typeWords ws) columns := by
  induction ws using typeWords.induct generalizing columns with
  | case1 name word ws ih =>
      unfold DataBase.parseColumns at h
      unfold typeWords
      cases htype : DataBase.columnType word with
      | error e =>
          rw [htype] at h
          cases h
      | ok c =>
          cases hrest : DataBase.parseColumns ws with
          | error e =>
              rw [htype, hrest] at h
              cases h
          | ok columns' =>
              rw [htype, hrest] at h
              cases h
              refine .cons ⟨List.mem_cons_self, htype⟩ ((ih hrest).imp fun word' c' hc => ⟨?_, hc.2⟩)
              exact List.mem_cons_of_mem name (List.mem_cons_of_mem word hc.1)
  | case2 ws hws =>
      have hnil : DataBase.parseColumns ws = .ok [] := by
        unfold DataBase.parseColumns
        split
        · exact absurd rfl (hws _ _ _)
        · rfl
      rw [hnil] at h
      cases h
      unfold typeWords
      split
      · exact absurd rfl (hws _ _ _)
      · exact .nil

theorem parseColumns_declared {ws : List Text} {columns : List (Text × ColumnType × Nat)}
    (hws : ∀ w ∈ ws, IsWord w) (h : DataBase.parseColumns ws = .ok columns) :
    ∀ c ∈ columns, Declared c := by
  intro c hc
  obtain ⟨i, hi, rfl⟩ := List.mem_iff_getElem.mp hc
  have hall := parseColumns_ok h
  have hlen := hall.length_eq
  obtain ⟨hname, htype⟩ := hall.get (by omega) hi
  obtain ⟨hlt, hsize⟩ := columnType_declared htype
  exact ⟨hws _ hname, hlt, hsize⟩

/-! Reading back. -/

namespace InfoLoader

/-- The words of a column in the row of types. -/
def typeRow (c : Text × ColumnType × Nat) : List Text :=
  if c.2.1 = .string then [typeToString c.2.1, natText c.2.2] else [typeToString c.2.1]

theorem isWord_typeToString (type : ColumnType) : IsWord (typeToString type) := by
  cases type <;> decide +kernel

theorem isWord_natText (n : Nat) : IsWord (natText n) := (CppText.numeral_toString n).isWord

theorem size_natText {n : Nat} (hn : n < 2 ^ 64) (ws : List Text) (old : Nat) :
    (IStream.mk (natText n :: ws) false).size old = (n, ⟨ws, false⟩) :=
  IStream.size_numeral (CppText.numeral_toString n) hn ws old

theorem readNames_append (names rest : List Text) :
    readNames names.length ⟨names ++ rest, false⟩ = (names, ⟨rest, false⟩) := by
  induction names with
  | nil => rfl
  | cons name names ih =>
      simp only [List.length_cons, List.cons_append, readNames, IStream.word, Bool.false_eq_true,
        if_false, ih, Option.getD_some]

theorem readType_row {c : Text × ColumnType × Nat} (h : Declared c) (rest : List Text) :
    ∃ word ws, typeRow c ++ rest = word :: ws ∧
      readType word ⟨ws, false⟩ = .ok (c.2.1, c.2.2, ⟨rest, false⟩) := by
  unfold typeRow
  by_cases hstring : c.2.1 = .string
  · refine ⟨str "STRING", natText c.2.2 :: rest, ?_, ?_⟩
    · rw [if_pos hstring, hstring]
      rfl
    · simp only [readType, if_true, Bool.false_eq_true, List.isEmpty_cons, Bool.or_self, if_false,
        size_natText h.size_lt, hstring]
  · refine ⟨typeToString c.2.1, rest, ?_, ?_⟩
    · rw [if_neg hstring]
      rfl
    · have hother : typeToString c.2.1 ≠ str "STRING" := by
        intro heq
        have hlookup := stringToType_typeToString c.2.1
        rw [heq] at hlookup
        exact hstring (Option.some.inj hlookup).symm
      simp only [readType, hother, if_false, stringToType_typeToString, Option.getD_some,
        h.size hstring]

theorem readTypes_rows {columns : List (Text × ColumnType × Nat)} (h : ∀ c ∈ columns, Declared c)
    (curType : Text) (offset : Nat) (rest : List Text) :
    readTypes curType offset (columns.map Prod.fst) ⟨columns.flatMap typeRow ++ rest, false⟩ =
      .ok (columnsFrom offset columns) := by
  induction columns generalizing curType offset with
  | nil => rfl
  | cons c columns ih =>
      have hrest := ih (fun d hd => h d (List.mem_cons_of_mem c hd))
      obtain ⟨word, ws, hrow, hread⟩ :=
        readType_row (h c List.mem_cons_self) (columns.flatMap typeRow ++ rest)
      rw [List.map_cons, List.flatMap_cons, List.append_assoc, hrow]
      unfold readTypes
      simp only [IStream.word, Bool.false_eq_true, if_false, Option.getD_some, hread]
      simp only [bind, Except.bind, hrest word (sizeAdd offset c.2.2)]
      rfl

theorem sizes_lt (columns : List (Text × ColumnType × Nat)) {n : Nat} (hn : n < 2 ^ 64) :
    columns.foldl (fun n c => sizeAdd n c.2.2) n < 2 ^ 64 := by
  induction columns generalizing n with
  | nil => exact hn
  | cons c columns ih => exact ih (Nat.mod_lt _ (by decide))

theorem words_infoText {columns : List (Text × ColumnType × Nat)} (h : ∀ c ∈ columns, Declared c) :
    words (DataBase.infoText columns) =
      natText (schemaOf columns).lineLength :: natText columns.length ::
        (columns.map Prod.fst ++ columns.flatMap typeRow) := by
  have hgap : ∀ b ∈ str "\n", CppText.isSpace b = true := by
    intro b hb
    rw [List.mem_singleton.mp hb]
    rfl
  have hrow (c : Text × ColumnType × Nat) : Spaced (typeRow c)
      (if c.2.1 = .string then typeToString c.2.1 ++ str " " ++ natText c.2.2
        else typeToString c.2.1) ∧ ∀ w ∈ typeRow c, IsWord w := by
    unfold typeRow
    split_ifs
    · refine ⟨.blank _ (.single _), ?_⟩
      simp [isWord_typeToString, isWord_natText]
    · exact ⟨.single _, by simp [isWord_typeToString]⟩
  have htypes := CppText.words_line (fun c (_ : c ∈ columns) => hrow c) []
  have hname : ∀ c ∈ columns, Spaced [c.1] (Prod.fst c) ∧ ∀ w ∈ [c.1], IsWord w :=
    fun c hc => ⟨.single _, by simpa using (h c hc).name⟩
  have hnames := CppText.words_line hname
  have hshape : DataBase.infoText columns =
      natText (schemaOf columns).lineLength ++ str "\n" ++ (natText columns.length ++ str "\n" ++
        ((str " ").intercalate (columns.map Prod.fst) ++ str "\n" ++
          ((str " ").intercalate (columns.map fun c =>
            if c.2.1 = .string then typeToString c.2.1 ++ str " " ++ natText c.2.2
            else typeToString c.2.1) ++ str "\n" ++ []))) := by
    simp only [List.append_assoc, List.append_nil]
    unfold DataBase.infoText
    simp only [List.append_assoc]
    rfl
  have hone : columns.flatMap (fun c => [c.1]) = columns.map Prod.fst :=
    (List.map_eq_flatMap).symm
  rw [hshape, CppText.words_cons (isWord_natText _) (by decide) hgap,
    CppText.words_cons (isWord_natText _) (by decide) hgap, hnames, htypes, hone]
  simp [words]

/-- The text of a schema file is read back as it was meant. -/
theorem loadFile_infoText {columns : List (Text × ColumnType × Nat)} (h : ∀ c ∈ columns, Declared c) :
    loadFile (DataBase.infoText columns) =
      if columns.length ≤ maxColumns then .ok (schemaOf columns) else .error .lengthError := by
  have hline : (schemaOf columns).lineLength < 2 ^ 64 := sizes_lt columns (by decide)
  unfold loadFile IStream.ofText
  rw [words_infoText h, size_natText hline]
  by_cases hlen : columns.length ≤ maxColumns
  · have hmax : maxColumns < 2 ^ 64 := by decide
    rw [if_pos hlen]
    dsimp only
    rw [size_natText (by omega)]
    dsimp only
    rw [if_neg (by omega)]
    have hnames := readNames_append (columns.map Prod.fst) (columns.flatMap typeRow)
    have htypes := readTypes_rows h [] 1 []
    rw [List.length_map] at hnames
    rw [List.append_nil] at htypes
    rw [hnames]
    dsimp only
    rw [htypes]
    rfl
  · rw [if_neg hlen]
    dsimp only
    by_cases hlt : columns.length < 2 ^ 64
    · rw [size_natText hlt]
      dsimp only
      rw [if_pos (by omega)]
      rfl
    · have hover : (IStream.mk (natText columns.length :: (columns.map Prod.fst ++
          columns.flatMap typeRow)) false).size 0 = _ :=
        IStream.size_overflow (CppText.numeral_toString _) (by omega) _ _
      rw [hover]
      rfl

end InfoLoader

/-! The columns of the schema. -/

section
variable {columns : List (Text × ColumnType × Nat)}

theorem columnsFrom_getElem (offset i : Nat) {name : Text} {type : ColumnType} {size : Nat}
    (h : columns[i]? = some (name, type, size)) (hoffset : offset < 2 ^ 64) :
    (columnsFrom offset columns)[i]? =
      some ⟨name, (offset + ((columns.take i).map (·.2.2)).sum) % 2 ^ 64, type, size⟩ := by
  induction columns generalizing offset i with
  | nil => cases h
  | cons c columns ih =>
      cases i with
      | zero =>
          cases h
          have hfirst : (offset + ((((name, type, size) :: columns).take 0).map (·.2.2)).sum) % 2 ^ 64 =
              offset := Nat.mod_eq_of_lt hoffset
          rw [hfirst]
          rfl
      | succ i =>
          have hrest := ih (sizeAdd offset c.2.2) i h (Nat.mod_lt _ (by decide))
          rw [sizeAdd, Nat.mod_add_mod, Nat.add_assoc] at hrest
          simpa [columnsFrom, sizeAdd] using hrest

theorem length_columnsFrom (offset : Nat) : (columnsFrom offset columns).length = columns.length := by
  induction columns generalizing offset with
  | nil => rfl
  | cons c columns ih => exact congrArg (· + 1) (ih _)

theorem lineLength_schemaOf :
    (schemaOf columns).lineLength = (1 + (columns.map (·.2.2)).sum) % 2 ^ 64 := by
  have hfold (n : Nat) (hn : n < 2 ^ 64) : columns.foldl (fun n c => sizeAdd n c.2.2) n =
      (n + (columns.map (·.2.2)).sum) % 2 ^ 64 := by
    induction columns generalizing n with
    | nil => exact (Nat.mod_eq_of_lt hn).symm
    | cons c columns ih =>
        rw [List.foldl_cons, ih (sizeAdd n c.2.2) (Nat.mod_lt _ (by decide)), sizeAdd,
          Nat.mod_add_mod, List.map_cons, List.sum_cons, Nat.add_assoc]
  exact hfold 1 (by decide)

theorem names_columnsFrom (offset : Nat) :
    (columnsFrom offset columns).map Column.name = columns.map Prod.fst := by
  induction columns generalizing offset with
  | nil => rfl
  | cons c columns ih => rw [columnsFrom, List.map_cons, List.map_cons, ih]

theorem lookup_schemaOf (name : Text) :
    (schemaOf columns).columnsMap.lookup name = columns.findIdx? (·.1 = name) := by
  have hfirst : (columnsFrom 1 columns).findIdx? (·.name = name) = columns.findIdx? (·.1 = name) := by
    have hmap (offset : Nat) : (columnsFrom offset columns).findIdx? (·.name = name) =
        ((columnsFrom offset columns).map Column.name).findIdx? (· = name) := by
      rw [List.findIdx?_map]
      rfl
    rw [hmap, names_columnsFrom, List.findIdx?_map]
    rfl
  have hlookup : (schemaOf columns).columnsMap.lookup name = _ := lookup_columnsMapFrom 0 _ [] name
  rw [hlookup, ← hfirst]
  simp

end

/-! Layouts. -/

/-- Every column has bytes of its own, as many as written, behind the active flag. -/
structure SoundLayout (types : List Text) (info : TabbleInfo) : Prop where
  sizes : ∀ c ∈ info.columns, 1 ≤ c.size
  strings : ∀ (i : Nat) (c : Column) (number : Text), info.columns[i]? = some c →
    types[i]? = some (str "STRING[" ++ number ++ str "]") → CppText.Numeral c.size number
  lineLength : info.lineLength = 1 + sizeSum info.columns
  disjoint : ∀ (i j : Nat) (c d : Column), info.columns[i]? = some c → info.columns[j]? = some d → i ≠ j →
    c.offset + c.size ≤ d.offset ∨ d.offset + d.size ≤ c.offset
  inside : ∀ c ∈ info.columns, 1 ≤ c.offset ∧ c.offset + c.size ≤ info.lineLength
  positive : 0 < info.lineLength

/-- The types with a size of their own. -/
def sizedTypes : List Text :=
  [str "INT32", str "INT64", str "DOUBLE", str "FLOAT", str "BOOL", str "TEXT"]

/-- A type with a size of its own, or a string with a positive number of bytes. -/
def SoundType (word : Text) : Prop :=
  word ∈ sizedTypes ∨ ∃ number, word = str "STRING[" ++ number ++ str "]" ∧ number ≠ [] ∧
    (∀ b ∈ number, CppText.isDigit b = true) ∧ 0 < CppText.decimal number

/-- The size a type word speaks of. -/
def writtenSize (word : Text) : Nat :=
  match stringToType.lookup word with
  | some type => typeSizes type
  | none => CppText.decimal ((word.drop 7).take (word.length - 8))

theorem bracketed_iff {word : Text} :
    ((str "STRING[").isPrefixOf word && word.getLast? = some 93) = true ↔
      ∃ number, word = str "STRING[" ++ number ++ str "]" := by
  simp only [Bool.and_eq_true, List.isPrefixOf_iff_prefix, decide_eq_true_eq]
  constructor
  · rintro ⟨⟨tail, rfl⟩, hlast⟩
    obtain ⟨front, hfront⟩ := List.getLast?_eq_some_iff.mp hlast
    rcases tail.eq_nil_or_concat with rfl | ⟨number, c, rfl⟩
    · exact absurd hlast (by decide)
    · rw [List.concat_eq_append, ← List.append_assoc] at hfront
      obtain ⟨-, hc⟩ := List.append_inj' hfront rfl
      refine ⟨number, ?_⟩
      rw [List.concat_eq_append, ← List.append_assoc, hc]
      rfl
  · rintro ⟨number, rfl⟩
    refine ⟨⟨number ++ str "]", (List.append_assoc _ _ _).symm⟩, ?_⟩
    rw [List.getLast?_append]
    rfl

theorem number_of_bracketed (number : Text) :
    ((str "STRING[" ++ number ++ str "]").drop 7).take
      ((str "STRING[" ++ number ++ str "]").length - 8) = number := by
  have hdrop : (str "STRING[" ++ number ++ str "]").drop 7 = number ++ str "]" := by
    rw [List.append_assoc]
    exact List.drop_left' rfl
  have hlen : (str "STRING[" ++ number ++ str "]").length - 8 = number.length := by
    simp only [List.length_append]
    change 7 + number.length + 1 - 8 = number.length
    omega
  rw [hdrop, hlen, List.take_left']
  rfl

theorem columnType_cases {word : Text} {c : ColumnType × Nat} (h : DataBase.columnType word = .ok c) :
    (∃ number, word = str "STRING[" ++ number ++ str "]" ∧ CppText.stoul number = .ok c.2) ∨
      (¬ (∃ number, word = str "STRING[" ++ number ++ str "]") ∧
        stringToType.lookup word = some c.1 ∧ c.2 = typeSizes c.1) := by
  unfold DataBase.columnType at h
  split at h
  · rename_i hbracket
    obtain ⟨number, rfl⟩ := bracketed_iff.mp hbracket
    rw [number_of_bracketed] at h
    cases hnum : CppText.stoul number with
    | error e =>
        rw [hnum] at h
        cases h
    | ok n =>
        rw [hnum] at h
        cases h
        exact .inl ⟨number, rfl, hnum⟩
  · rename_i hbracket
    split at h
    · cases h
    · rename_i hlookup
      cases h
      exact .inr ⟨fun hnum => hbracket (bracketed_iff.mpr hnum), hlookup, rfl⟩

theorem stoul_numeral {number : Text} {n : Nat} (h : CppText.stoul number = .ok n) :
    CppText.Numeral n number ↔ number ≠ [] ∧ ∀ b ∈ number, CppText.isDigit b = true := by
  constructor
  · intro hnum
    exact ⟨hnum.ne_nil, hnum.digits⟩
  · intro ⟨hne, hdigits⟩
    have hnum : CppText.Numeral (CppText.decimal number) number := ⟨hne, hdigits, rfl⟩
    have hread := hnum.stoul
    rw [h] at hread
    split at hread
    · cases hread
    · rwa [Except.ok.inj hread]

/-- The types of the table that say which size they have. -/
theorem sizedTypes_iff {word : Text} {type : ColumnType} (h : stringToType.lookup word = some type) :
    word ∈ sizedTypes ↔ 1 ≤ typeSizes type := by
  have hmem : (word, type) ∈ stringToType := by
    obtain ⟨before, behind, heq, -⟩ := List.lookup_eq_some_iff.mp h
    rw [heq]
    exact List.mem_append_right before List.mem_cons_self
  simp only [stringToType, List.mem_cons, Prod.mk.injEq, List.not_mem_nil, or_false] at hmem
  rcases hmem with ⟨rfl, rfl⟩ | ⟨rfl, rfl⟩ | ⟨rfl, rfl⟩ | ⟨rfl, rfl⟩ | ⟨rfl, rfl⟩ | ⟨rfl, rfl⟩ |
    ⟨rfl, rfl⟩ | ⟨rfl, rfl⟩ <;> decide

theorem soundType_iff {word : Text} {c : ColumnType × Nat} (h : DataBase.columnType word = .ok c) :
    SoundType word ↔ 1 ≤ c.2 ∧
      ∀ number, word = str "STRING[" ++ number ++ str "]" → CppText.Numeral c.2 number := by
  rcases columnType_cases h with ⟨number, rfl, hnum⟩ | ⟨hother, hlookup, hsize⟩
  · have hfixed : str "STRING[" ++ number ++ str "]" ∉ sizedTypes := by
      simp [sizedTypes, str]
    have hsame (number' : Text) :
        str "STRING[" ++ number ++ str "]" = str "STRING[" ++ number' ++ str "]" ↔ number' = number := by
      rw [List.append_cancel_right_eq, List.append_cancel_left_eq, eq_comm]
    simp only [SoundType, hfixed, false_or, hsame, forall_eq]
    constructor
    · rintro ⟨number', heq, hne, hdigits, hpos⟩
      subst heq
      have hnumeral := (stoul_numeral hnum).mpr ⟨hne, hdigits⟩
      rw [hnumeral.value] at hpos
      exact ⟨hpos, hnumeral⟩
    · rintro ⟨hpos, hnumeral⟩
      refine ⟨number, rfl, hnumeral.ne_nil, hnumeral.digits, ?_⟩
      rwa [hnumeral.value]
  · rw [hsize, ← sizedTypes_iff hlookup]
    constructor
    · rintro (hsized | ⟨number, heq, -⟩)
      · exact ⟨hsized, fun number heq => absurd ⟨number, heq⟩ hother⟩
      · exact absurd ⟨number, heq⟩ hother
    · intro hsized
      exact .inl hsized.1

theorem writtenSize_sound {word : Text} {c : ColumnType × Nat}
    (h : DataBase.columnType word = .ok c) (hsound : SoundType word) : writtenSize word = c.2 := by
  obtain ⟨-, hnumeral⟩ := (soundType_iff h).mp hsound
  unfold writtenSize
  rcases columnType_cases h with ⟨number, rfl, -⟩ | ⟨-, hlookup, hsize⟩
  · have hnone : stringToType.lookup (str "STRING[" ++ number ++ str "]") = none := by
      rw [List.lookup_eq_none_iff]
      simp [stringToType, str]
    rw [hnone]
    dsimp only
    rw [number_of_bracketed]
    exact (hnumeral number rfl).value
  · rw [hlookup, hsize]

theorem OffsetsFrom.of_sizes {columns : List (Text × ColumnType × Nat)} {offset : Nat}
    (h : offset + (columns.map (·.2.2)).sum < 2 ^ 64) : OffsetsFrom offset (columnsFrom offset columns) := by
  induction columns generalizing offset with
  | nil => trivial
  | cons c columns ih =>
      rw [List.map_cons, List.sum_cons] at h
      have hnext : sizeAdd offset c.2.2 = offset + c.2.2 := Nat.mod_eq_of_lt (by omega)
      have hrest : OffsetsFrom (offset + c.2.2) (columnsFrom (offset + c.2.2) columns) := ih (by omega)
      refine ⟨rfl, ?_⟩
      rwa [← hnext] at hrest ⊢

theorem sizeSum_columnsFrom (columns : List (Text × ColumnType × Nat)) (offset : Nat) :
    sizeSum (columnsFrom offset columns) = (columns.map (·.2.2)).sum := by
  induction columns generalizing offset with
  | nil => rfl
  | cons c columns ih => rw [columnsFrom, sizeSum_cons, ih, List.map_cons, List.sum_cons]

/-- The types and the sum of the sizes decide whether the lines are laid out soundly. -/
theorem soundLayout_iff {ws : List Text} {columns : List (Text × ColumnType × Nat)}
    (h : DataBase.parseColumns ws = .ok columns) : SoundLayout (typeWords ws) (schemaOf columns) ↔
      (∀ word ∈ typeWords ws, SoundType word) ∧ 1 + ((typeWords ws).map writtenSize).sum < 2 ^ 64 := by
  have hall := parseColumns_ok h
  have hlen := hall.length_eq
  have hpair (i : Nat) (hi : i < (typeWords ws).length) : ∃ c : Text × ColumnType × Nat,
      columns[i]? = some c ∧ DataBase.columnType (typeWords ws)[i] = .ok c.2 ∧
        ∃ d, (schemaOf columns).columns[i]? = some d ∧ d.size = c.2.2 := by
    have hi' : i < columns.length := by omega
    have hget := List.getElem?_eq_getElem hi'
    exact ⟨_, hget, (hall.get hi hi').2, _, columnsFrom_getElem 1 i hget (by decide), rfl⟩
  have hsizes (hsound : ∀ word ∈ typeWords ws, SoundType word) :
      (typeWords ws).map writtenSize = columns.map (·.2.2) := by
    apply List.ext_getElem (by simpa using hlen)
    intro i hi hi'
    rw [List.length_map] at hi
    obtain ⟨c, hc, htype, -⟩ := hpair i hi
    rw [List.getElem_map, List.getElem_map, (List.getElem?_eq_some_iff.mp hc).2]
    exact writtenSize_sound htype (hsound _ (List.getElem_mem hi))
  have hsum : sizeSum (schemaOf columns).columns = (columns.map (·.2.2)).sum :=
    sizeSum_columnsFrom columns 1
  constructor
  · intro layout
    have hsound : ∀ word ∈ typeWords ws, SoundType word := by
      intro word hword
      obtain ⟨i, hi, rfl⟩ := List.mem_iff_getElem.mp hword
      obtain ⟨c, -, htype, d, hd, hsize⟩ := hpair i hi
      rw [soundType_iff htype, ← hsize]
      refine ⟨layout.sizes d (List.mem_of_getElem? hd), fun number heq => ?_⟩
      apply layout.strings i d number hd
      rw [List.getElem?_eq_getElem hi, heq]
    refine ⟨hsound, ?_⟩
    rw [hsizes hsound, ← hsum, ← layout.lineLength, lineLength_schemaOf]
    exact Nat.mod_lt _ (by decide)
  · rintro ⟨hsound, hlt⟩
    rw [hsizes hsound] at hlt
    have hplaced : OffsetsFrom 1 (schemaOf columns).columns := .of_sizes hlt
    have hline : (schemaOf columns).lineLength = 1 + sizeSum (schemaOf columns).columns := by
      rw [lineLength_schemaOf, hsum, Nat.mod_eq_of_lt hlt]
    have hword (i : Nat) {c : Column} (hc : (schemaOf columns).columns[i]? = some c) :
        ∃ hi : i < (typeWords ws).length, 1 ≤ c.size ∧
          ∀ number, (typeWords ws)[i] = str "STRING[" ++ number ++ str "]" → CppText.Numeral c.size number := by
      have hi := (List.getElem?_eq_some_iff.mp hc).1
      have hlength : (schemaOf columns).columns.length = columns.length := length_columnsFrom 1
      have hi' : i < (typeWords ws).length := by omega
      obtain ⟨e, -, htype, d, hd, hsize⟩ := hpair i hi'
      obtain rfl : d = c := Option.some.inj (hd.symm.trans hc)
      rw [hsize]
      exact ⟨hi', (soundType_iff htype).mp (hsound _ (List.getElem_mem hi'))⟩
    exact {
      sizes := by
        intro c hc
        obtain ⟨i, hi⟩ := List.mem_iff_getElem?.mp hc
        obtain ⟨-, hpos, -⟩ := hword i hi
        exact hpos
      strings := by
        intro i c number hc hnumber
        obtain ⟨hi, -, hnumeral⟩ := hword i hc
        rw [List.getElem?_eq_getElem hi] at hnumber
        exact hnumeral number (Option.some.inj hnumber)
      lineLength := hline
      disjoint := by
        intro i j c d hi hj hij
        rcases Nat.lt_or_gt_of_ne hij with hlt | hlt
        · exact .inl (hplaced.disjoint hi hj hlt)
        · exact .inr (hplaced.disjoint hj hi hlt)
      inside := by
        intro c hc
        rw [hline]
        exact hplaced.bounds c hc
      positive := by omega }

end SQLid
