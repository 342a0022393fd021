import SQLid.Commands

/-!
# The system commands as they are written

A command is written in one of eight forms, each a few words and the names between them. The
parser reads every stream that begins with one of them so. It also reads streams that begin
with none: a name that is missing is the word before it or empty, a table needs no name, and
every unknown word asks for help.
-/
namespace SQLid
open Bytes (Text)
open CppText (str)

namespace CommandsParser
open RequestParser (next)

/-- The names behind `CREATE TABLE FOR`: a database, a table and at least one column, each with
its type. -/
def Tabled (ws : List Text) : Prop := 4 ≤ ws.length ∧ ws.length % 2 = 0

/-- The stream begins with this command as it is written. -/
inductive Written : CommandsVariant → List Text → Prop
  | createDatabase (name : Text) (rest : List Text) :
      Written (.createDatabase name) (str "CREATE" :: str "DATABASE" :: name :: rest)
  | createTable {names : List Text} (hnames : Tabled names) :
      Written (.createTableForDatabase names) (str "CREATE" :: str "TABLE" :: str "FOR" :: names)
  | attach (name : Text) (rest : List Text) : Written (.attach name) (str "ATTACH" :: str "TO" :: name :: rest)
  | backup (base backup : Text) (rest : List Text) :
      Written (.backupDatabase base backup) (str "BACKUP" :: base :: str "AS" :: backup :: rest)
  | restore (backup base : Text) (rest : List Text) :
      Written (.restoreDatabase backup base) (str "RESTORE" :: backup :: str "AS" :: base :: rest)
  | showStructure (rest : List Text) : Written .showStructure (str "SHOW" :: rest)
  | drop {word : Text} (hword : word = str "DATABASE" ∨ word = str "BASE") (name : Text) (rest : List Text) :
      Written (.dropDatabase name) (str "DROP" :: word :: name :: rest)
  | help {word : Text} (hword : word = str "HELP" ∨ word = str "help") (rest : List Text) :
      Written .help (word :: rest)

/-- The words that commands begin with. -/
def openings : List Text :=
  [str "CREATE", str "ATTACH", str "BACKUP", str "RESTORE", str "SHOW", str "DROP", str "HELP", str "help"]

/-- The stream ends where a name of its command should stand. -/
inductive Nameless : List Text → Prop
  | createTable {names : List Text} (hnames : ¬ Tabled names) :
      Nameless (str "CREATE" :: str "TABLE" :: str "FOR" :: names)
  | createDatabase : Nameless [str "CREATE", str "DATABASE"]
  | attach : Nameless [str "ATTACH", str "TO"]
  | backup (base : Text) : Nameless [str "BACKUP", base, str "AS"]
  | restore (backup : Text) : Nameless [str "RESTORE", backup, str "AS"]
  | drop {word : Text} (hword : word = str "DATABASE" ∨ word = str "BASE") : Nameless [str "DROP", word]

/-- The first word of the stream opens no command. -/
def Unopened (ws : List Text) : Prop := ∀ w ∈ ws.head?, w ∉ openings

/-- What the parser makes of the other streams it accepts. -/
inductive Misread : CommandsVariant → List Text → Prop
  | createTable {names : List Text} (hnames : ¬ Tabled names) :
      Misread (.createTableForDatabase names) (str "CREATE" :: str "TABLE" :: str "FOR" :: names)
  | createDatabase : Misread (.createDatabase (str "DATABASE")) [str "CREATE", str "DATABASE"]
  | attach : Misread (.attach (str "TO")) [str "ATTACH", str "TO"]
  | backup (base : Text) : Misread (.backupDatabase base []) [str "BACKUP", base, str "AS"]
  | restore (backup : Text) : Misread (.restoreDatabase backup []) [str "RESTORE", backup, str "AS"]
  | drop {word : Text} (hword : word = str "DATABASE" ∨ word = str "BASE") :
      Misread (.dropDatabase word) [str "DROP", word]
  | help {ws : List Text} (h : Unopened ws) : Misread .help ws

section
variable {ws : List Text} {com : CommandsVariant}

theorem parse_written (h : Written com ws) : parse ws = .ok com := by
  cases h with
  | drop hword name rest =>
      rcases hword with rfl | rfl
      · rfl
      · rfl
  | help hword rest =>
      rcases hword with rfl | rfl
      · rfl
      · rfl
  | _ => rfl

theorem parse_misread (h : Misread com ws) : parse ws = .ok com := by
  cases h with
  | drop hword =>
      rcases hword with rfl | rfl
      · rfl
      · rfl
  | help h =>
      cases ws with
      | nil => rfl
      | cons w ws =>
          have hw : w ∉ openings := h w rfl
          simp only [openings, List.mem_cons, List.not_mem_nil, or_false, not_or] at hw
          obtain ⟨hcreate, hattach, hbackup, hrestore, hshow, hdrop, -, -⟩ := hw
          unfold parse
          dsimp only [next]
          rw [if_neg hcreate, if_neg hattach, if_neg hbackup, if_neg hrestore, if_neg hshow, if_neg hdrop]
  | _ => rfl

/-- A keyword and what follows it. -/
theorem parse_create (word : Text) (ws : List Text) : parse (str "CREATE" :: word :: ws) =
    if word = str "TABLE" then
      if (next word ws).1 = str "FOR" then .ok (.createTableForDatabase (next word ws).2) else unknown (next word ws).1
    else if word = str "DATABASE" then .ok (.createDatabase (next word ws).1) else unknown word := rfl

theorem parse_attach (word : Text) (ws : List Text) : parse (str "ATTACH" :: word :: ws) =
    if word = str "TO" then .ok (.attach (next word ws).1) else unknown word := rfl

theorem parse_backup (name word : Text) (ws : List Text) : parse (str "BACKUP" :: name :: word :: ws) =
    if word = str "AS" then .ok (.backupDatabase name (next [] ws).1) else unknown word := rfl

theorem parse_restore (name word : Text) (ws : List Text) : parse (str "RESTORE" :: name :: word :: ws) =
    if word = str "AS" then .ok (.restoreDatabase name (next [] ws).1) else unknown word := rfl

theorem parse_drop (word : Text) (ws : List Text) : parse (str "DROP" :: word :: ws) =
    if word = str "DATABASE" ∨ word = str "BASE" then .ok (.dropDatabase (next word ws).1) else unknown word := rfl

/-- What the parser makes of a stream. -/
def Read (ws : List Text) : Prop :=
  (∃ com, parse ws = .ok com ∧ (Written com ws ∨ Misread com ws)) ∨ ∃ buf, parse ws = unknown buf

theorem read_written (h : Written com ws) : Read ws := .inl ⟨com, parse_written h, .inl h⟩

theorem read_misread (h : Misread com ws) : Read ws := .inl ⟨com, parse_misread h, .inr h⟩

theorem read_create (ws : List Text) : Read (str "CREATE" :: ws) := by
  cases ws with
  | nil => exact .inr ⟨_, rfl⟩
  | cons word ws =>
      by_cases htable : word = str "TABLE"
      · subst htable
        cases ws with
        | nil => exact .inr ⟨_, rfl⟩
        | cons word ws =>
            by_cases hfor : word = str "FOR"
            · subst hfor
              by_cases hnames : Tabled ws
              · exact read_written (.createTable hnames)
              · exact read_misread (.createTable hnames)
            · refine .inr ⟨word, ?_⟩
              rw [parse_create, if_pos rfl]
              exact if_neg hfor
      · by_cases hbase : word = str "DATABASE"
        · subst hbase
          cases ws with
          | nil => exact read_misread .createDatabase
          | cons name ws => exact read_written (.createDatabase name ws)
        · refine .inr ⟨word, ?_⟩
          rw [parse_create, if_neg htable, if_neg hbase]

theorem read_attach (ws : List Text) : Read (str "ATTACH" :: ws) := by
  cases ws with
  | nil => exact .inr ⟨_, rfl⟩
  | cons word ws =>
      by_cases hto : word = str "TO"
      · subst hto
        cases ws with
        | nil => exact read_misread .attach
        | cons name ws => exact read_written (.attach name ws)
      · refine .inr ⟨word, ?_⟩
        rw [parse_attach, if_neg hto]

theorem read_backup (ws : List Text) : Read (str "BACKUP" :: ws) := by
  rcases ws with _ | ⟨name, _ | ⟨word, ws⟩⟩
  · exact .inr ⟨_, rfl⟩
  · exact .inr ⟨_, rfl⟩
  · by_cases has : word = str "AS"
    · subst has
      cases ws with
      | nil => exact read_misread (.backup name)
      | cons name' ws => exact read_written (.backup name name' ws)
    · refine .inr ⟨word, ?_⟩
      rw [parse_backup, if_neg has]

theorem read_restore (ws : List Text) : Read (str "RESTORE" :: ws) := by
  rcases ws with _ | ⟨name, _ | ⟨word, ws⟩⟩
  · exact .inr ⟨_, rfl⟩
  · exact .inr ⟨_, rfl⟩
  · by_cases has : word = str "AS"
    · subst has
      cases ws with
      | nil => exact read_misread (.restore name)
      | cons name' ws => exact read_written (.restore name name' ws)
    · refine .inr ⟨word, ?_⟩
      rw [parse_restore, if_neg has]

theorem read_drop (ws : List Text) : Read (str "DROP" :: ws) := by
  cases ws with
  | nil => exact .inr ⟨_, rfl⟩
  | cons word ws =>
      by_cases hword : word = str "DATABASE" ∨ word = str "BASE"
      · cases ws with
        | nil => exact read_misread (.drop hword)
        | cons name ws => exact read_written (.drop hword name ws)
      · refine .inr ⟨word, ?_⟩
        rw [parse_drop, if_neg hword]

/-- Every stream begins with a command, is misread or is refused. -/
theorem parse_cases (ws : List Text) : Read ws := by
  cases ws with
  | nil => exact read_misread (.help fun _ hw => by cases hw)
  | cons w ws =>
      by_cases hmem : w ∈ openings
      · simp only [openings, List.mem_cons, List.not_mem_nil, or_false] at hmem
        rcases hmem with rfl | rfl | rfl | rfl | rfl | rfl | hhelp
        · exact read_create ws
        · exact read_attach ws
        · exact read_backup ws
        · exact read_restore ws
        · exact read_written (.showStructure ws)
        · exact read_drop ws
        · exact read_written (.help hhelp ws)
      · refine read_misread (.help fun v hv => ?_)
        cases hv
        exact hmem

/-- The parser accepts the streams that begin with a command, and those it misreads. -/
theorem parse_ok_iff : parse ws = .ok com ↔ Written com ws ∨ Misread com ws := by
  refine ⟨fun h => ?_, fun h => h.elim parse_written parse_misread⟩
  rcases parse_cases ws with ⟨com', hparse, hread⟩ | ⟨buf, hparse⟩
  · rw [hparse] at h
    cases h
    exact hread
  · rw [hparse] at h
    cases h

theorem parse_error {e : Fault} (h : parse ws = .error e) : ∃ message, e = .incorrectInput message := by
  rcases parse_cases ws with ⟨com', hparse, -⟩ | ⟨buf, hparse⟩
  · rw [hparse] at h
    cases h
  · rw [hparse] at h
    cases h
    exact ⟨_, rfl⟩

theorem misread_iff : (∃ com, Misread com ws) ↔ Unopened ws ∨ Nameless ws := by
  constructor
  · rintro ⟨com, h⟩
    cases h with
    | createTable hnames => exact .inr (.createTable hnames)
    | createDatabase => exact .inr .createDatabase
    | attach => exact .inr .attach
    | backup base => exact .inr (.backup base)
    | restore backup => exact .inr (.restore backup)
    | drop hword => exact .inr (.drop hword)
    | help h => exact .inl h
  · rintro (h | h)
    · exact ⟨_, .help h⟩
    · cases h with
      | createTable hnames => exact ⟨_, .createTable hnames⟩
      | createDatabase => exact ⟨_, .createDatabase⟩
      | attach => exact ⟨_, .attach⟩
      | backup base => exact ⟨_, .backup base⟩
      | restore backup => exact ⟨_, .restore backup⟩
      | drop hword => exact ⟨_, .drop hword⟩

/-- What is misread does not begin with a command. -/
theorem Misread.not_written {com' : CommandsVariant} (h : Misread com ws) : ¬ Written com' ws := by
  intro hwritten
  have hsame := (parse_misread h).symm.trans (parse_written hwritten)
  cases hsame
  cases h with
  | help hunopened =>
      cases hwritten with
      | help hword rest =>
          refine hunopened _ rfl ?_
          rcases hword with rfl | rfl
          · simp [openings]
          · simp [openings]
  | createTable hnames =>
      cases hwritten with
      | createTable hnames' => exact hnames hnames'
  | createDatabase => cases hwritten
  | attach => cases hwritten
  | backup base => cases hwritten
  | restore backup => cases hwritten
  | drop hword => cases hwritten

/-- A stream is read as the command it begins with, or refused if it begins with none. -/
def Recognised (ws : List Text) : Prop :=
  (∀ com, parse ws = .ok com ↔ Written com ws) ∧
    ((∀ com, ¬ Written com ws) → ∃ message, parse ws = .error (.incorrectInput message))

theorem Misread.not_recognised (h : Misread com ws) : ¬ Recognised ws := by
  rintro ⟨hok, -⟩
  exact h.not_written ((hok com).mp (parse_misread h))

/-- Commands are recognised exactly unless the first word opens none or a name is missing. -/
theorem recognised_iff (ws : List Text) : Recognised ws ↔ ¬ (Unopened ws ∨ Nameless ws) := by
  rw [← misread_iff]
  constructor
  · rintro h ⟨com, hmisread⟩
    exact hmisread.not_recognised h
  · intro hread
    refine ⟨fun com => ?_, fun hnone => ?_⟩
    · rw [parse_ok_iff]
      exact or_iff_left fun h => hread ⟨com, h⟩
    · cases hparse : parse ws with
      | ok com => exact ((parse_ok_iff.mp hparse).elim (hnone com) fun h => hread ⟨com, h⟩).elim
      | error e =>
          obtain ⟨message, rfl⟩ := parse_error hparse
          exact ⟨message, rfl⟩

end
/-- `DROP DATABASE` drops the database with the name `DATABASE`. -/
theorem nameless_drop_accepted : ¬ ∀ command : Text, Recognised (CppText.words command) := by
  intro h
  have hwords : CppText.words (str "DROP DATABASE") = [str "DROP", str "DATABASE"] := by decide
  have hrecognised := h (str "DROP DATABASE")
  rw [hwords] at hrecognised
  exact (Misread.drop (.inl rfl)).not_recognised hrecognised

end CommandsParser
end SQLid
