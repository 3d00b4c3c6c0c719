import Std.Data.String.ToNat
import Porthmos.EngineHistory
import Porthmos.StateFiles
import Porthmos.Toml

/-!
# The file of the history

The entries of the history are one document: a list of tables, one for each entry, with the sizes
as numbers.  What is loaded is what was written as long as every number is one that a document
can have.
-/

namespace Porthmos

open Program

/-- What the crates do: documents, dates, and the text for a document of another shape. -/
structure HistoryFormat where
  toml : TomlCrate
  writeDate : Nat → String
  readDate : String → Option Nat
  mismatch : Toml → String

/-- Dates are read as they were written, and so are documents. -/
structure HistoryFormat.Documented (format : HistoryFormat) : Prop where
  toml : format.toml.Documented
  dates : ∀ date, format.readDate (format.writeDate date) = some date

namespace Direction

def toToml : Direction → Toml
  | .upload => .text "upload"
  | .download => .text "download"

def ofToml : Toml → Option Direction
  | .text "upload" => some .upload
  | .text "download" => some .download
  | _ => none

@[simp]
theorem ofToml_toToml (direction : Direction) : ofToml direction.toToml = some direction := by
  cases direction <;> rfl

end Direction

namespace HistoryResult

def toToml : HistoryResult → Toml
  | .done => .text "done"
  | .partlyFailed count => .table [("partly_failed", .table [("failed", .number count)])]
  | .failed => .text "failed"
  | .cancelled => .text "cancelled"
  | .interrupted => .text "interrupted"

def ofToml : Toml → Option HistoryResult
  | .text "done" => some .done
  | .text "failed" => some .failed
  | .text "cancelled" => some .cancelled
  | .text "interrupted" => some .interrupted
  | .table [("partly_failed", value)] => do
      some (.partlyFailed (← (← value.field "failed").asNat))
  | _ => none

@[simp]
theorem ofToml_toToml (result : HistoryResult) : ofToml result.toToml = some result := by
  cases result with
  | partlyFailed count => simp [toToml, ofToml, Toml.field]
  | done | failed | cancelled | interrupted => rfl

end HistoryResult

namespace HistoryEntry

variable (format : HistoryFormat)

def toToml (entry : HistoryEntry) : Toml :=
  .table [
    ("bytes", .number entry.bytes),
    ("connection", .text entry.connection),
    ("direction", entry.direction.toToml),
    ("failed_count", .number entry.failedCount),
    ("failed_files", .list (entry.failedFiles.map .text)),
    ("files_done", .number entry.filesDone),
    ("files_total", .number entry.filesTotal),
    ("finished_at", .text (format.writeDate entry.finishedAt)),
    ("label", .text entry.label),
    ("local_path", .text entry.localPath),
    ("remote_path", .text entry.remotePath),
    ("result", entry.result.toToml)]

/-- A field with `serde(default)`. -/
def orDefault {α : Type} (value : Option Toml) (default : α) (read : Toml → Option α) : Option α :=
  match value with
  | none => some default
  | some value => read value

def ofToml (value : Toml) : Option HistoryEntry := do
  some {
    finishedAt := ← format.readDate (← (← value.field "finished_at").asText)
    connection := ← (← value.field "connection").asText
    direction := ← Direction.ofToml (← value.field "direction")
    label := ← (← value.field "label").asText
    localPath := ← (← value.field "local_path").asText
    remotePath := ← (← value.field "remote_path").asText
    filesDone := ← (← value.field "files_done").asNat
    filesTotal := ← (← value.field "files_total").asNat
    bytes := ← (← value.field "bytes").asNat
    result := ← HistoryResult.ofToml (← value.field "result")
    failedCount := ← orDefault (value.field "failed_count") 0 Toml.asNat
    failedFiles := ← orDefault (value.field "failed_files") [] fun files =>
      files.asList.bind fun files => files.mapM Toml.asText }

variable {format}

theorem mapM_asText (texts : List String) : texts.mapM (Toml.asText ∘ Toml.text) = some texts := by
  induction texts with
  | nil => rfl
  | cons text texts ih => simp [List.mapM_cons, Toml.asText, ih]

theorem ofToml_toToml (documented : format.Documented) (entry : HistoryEntry) :
    ofToml format (entry.toToml format) = some entry := by
  simp [ofToml, toToml, Toml.field, List.lookup_cons, Toml.asText, documented.dates, orDefault,
    Toml.asList, mapM_asText]

end HistoryEntry

def renderEntries (format : HistoryFormat) (entries : List HistoryEntry) : Except String String :=
  format.toml.render (.table [("entries", .list (entries.map (HistoryEntry.toToml format)))])

/-- `toml::from_str::<HistoryFile>` -/
def parseEntries (format : HistoryFormat) (text : String) : Except String (List HistoryEntry) :=
  match format.toml.parse text with
  | .error problem => .error problem
  | .ok document =>
    match ((document.field "entries").bind Toml.asList).bind
        (List.mapM (HistoryEntry.ofToml format)) with
    | some entries => .ok entries
    | none => .error (format.mismatch document)

structure History where
  path : Path
  entries : List HistoryEntry
  writable : Bool
  deriving DecidableEq, Repr

namespace History

def trim (entries : List HistoryEntry) : List HistoryEntry :=
  entries.drop (entries.length - maxEntries)

/-- `History::load`, with the warning for a file that was set aside. -/
def load (format : HistoryFormat) (path : Path) :
    Program FileRequest IoError (History × Option String) := do
  match ← StateFiles.readOrSetAside path "transfer history" (parseEntries format) with
  | .missing => pure (⟨path, [], true⟩, none)
  | .ready entries => pure (⟨path, trim entries, true⟩, none)
  | .setAside warning isProtected => pure (⟨path, [], !isProtected⟩, some warning)

end History

/-! ### Writing and reading -/

variable {format : HistoryFormat}

theorem mapM_ofToml (documented : format.Documented) (entries : List HistoryEntry) :
    (entries.map (HistoryEntry.toToml format)).mapM (HistoryEntry.ofToml format) = some entries := by
  rw [List.mapM_map]
  induction entries with
  | nil => rfl
  | cons entry entries ih => simp [List.mapM_cons, HistoryEntry.ofToml_toToml documented, ih]

theorem parseEntries_of_render (documented : format.Documented) {entries : List HistoryEntry}
    {text : String} (rendered : renderEntries format entries = .ok text) :
    parseEntries format text = .ok entries := by
  unfold parseEntries
  rw [documented.toml.parses _ text rendered]
  simp [Toml.field, Toml.asList, mapM_ofToml documented]

/-- The numbers of an entry. -/
def HistoryEntry.Fits (entry : HistoryEntry) : Prop :=
  entry.bytes < 2 ^ 63 ∧ entry.filesDone < 2 ^ 63 ∧ entry.filesTotal < 2 ^ 63 ∧
    entry.failedCount < 2 ^ 63 ∧ ∀ failed, entry.result = .partlyFailed failed → failed < 2 ^ 63

theorem writable_result (result : HistoryResult) :
    result.toToml.Writable ↔ ∀ failed, result = .partlyFailed failed → failed < 2 ^ 63 := by
  cases result with
  | partlyFailed count => simp [HistoryResult.toToml, Toml.writable_table, Toml.writable_nat]
  | done | failed | cancelled | interrupted => simp [HistoryResult.toToml, Toml.Writable.text]

theorem writable_entry (entry : HistoryEntry) : (entry.toToml format).Writable ↔ entry.Fits := by
  have direction : entry.direction.toToml.Writable := by cases entry.direction <;> exact .text _
  have texts : (Toml.list (entry.failedFiles.map .text)).Writable := by
    rw [Toml.writable_list]
    intro item member
    obtain ⟨text, _, rfl⟩ := List.mem_map.mp member
    exact .text text
  unfold HistoryEntry.toToml
  rw [Toml.writable_table]
  simp only [List.forall_mem_cons, Toml.writable_nat, direction, texts, writable_result,
    Toml.Writable.text]
  constructor
  · rintro ⟨-, bytes, -, -, failed, -, done, total, -, -, -, -, result, -⟩
    exact ⟨bytes, done, total, failed, result⟩
  · rintro ⟨bytes, done, total, failed, result⟩
    refine ⟨?_, bytes, trivial, trivial, failed, trivial, done, total, trivial, trivial, trivial,
      trivial, result, List.forall_mem_nil _⟩
    have sorted : ["bytes", "connection", "direction", "failed_count", "failed_files",
        "files_done", "files_total", "finished_at", "label", "local_path", "remote_path",
        "result"].Pairwise (· < ·) := by
      decide
    exact sorted

theorem renders_iff (documented : format.Documented) (entries : List HistoryEntry) :
    (∃ text, renderEntries format entries = .ok text) ↔ ∀ entry ∈ entries, entry.Fits := by
  unfold renderEntries
  rw [documented.toml.renders, Toml.writable_table]
  simp [Toml.writable_list, writable_entry]


/-! ### What the engine records -/

/-- What an entry is made of: the jobs of a row, or a scan that failed. -/
inductive Recording
  | row (now : Nat) (connection : String) (row : QueueRow) (jobs : List TransferJob)
  | failedScan (now : Nat) (connection : String) (direction : Direction) (label : String)

namespace Recording

def entry : Recording → HistoryEntry
  | .row now connection finished jobs => entryOfJobs now connection finished jobs
  | .failedScan now connection direction label =>
    newEntry now connection direction label .failed

/-- What the bytes of the entry add up to. -/
def byteSum : Recording → Nat
  | .row _ _ _ jobs => (jobs.map entryBytes).sum
  | .failedScan _ _ _ _ => 0

/-- The numbers of the row are ones of 63 bits. -/
def Fits : Recording → Prop
  | .row _ _ finished jobs => (jobs.map entryBytes).sum < 2 ^ 63 ∧ jobs.length < 2 ^ 63 ∧
      ∀ failed, finished.state = .partlyFailed failed → failed < 2 ^ 63
  | .failedScan _ _ _ _ => True

theorem fits_entry (recording : Recording) : recording.entry.Fits ↔ recording.Fits := by
  cases recording with
  | failedScan now connection direction label => simp [Fits, HistoryEntry.Fits, entry, newEntry]
  | row now connection finished jobs =>
    have done : jobs.countP (fun job => decide (job.status = .completed)) ≤ jobs.length :=
      List.countP_le_length
    have failed : (jobs.filter isFailed).length ≤ jobs.length := List.length_filter_le ..
    have result : (∀ failed, historyResult finished.state = .partlyFailed failed →
        failed < 2 ^ 63) ↔
        ∀ failed, finished.state = .partlyFailed failed → failed < 2 ^ 63 := by
      cases finished.state <;> simp [historyResult]
    simp only [Fits, HistoryEntry.Fits, entry, entryOfJobs, newEntry, result]
    constructor
    · rintro ⟨bytes, -, total, -, state⟩
      exact ⟨bytes, total, state⟩
    · rintro ⟨bytes, total, state⟩
      exact ⟨bytes, by omega, total, by omega, state⟩

end Recording

/-- The entries in memory once these have been recorded. -/
def recorded (recordings : List Recording) : List HistoryEntry :=
  (recordings.map Recording.entry).foldl HistoryLog.push []

theorem drop_drop_append {α : Type} (limit : Nat) (entries more : List α) :
    (entries.drop (entries.length - limit) ++ more).drop
        ((entries.drop (entries.length - limit) ++ more).length - limit) =
      (entries ++ more).drop ((entries ++ more).length - limit) := by
  rw [← List.drop_append_of_le_length (Nat.sub_le _ _), List.drop_drop, List.length_drop]
  have same : entries.length - limit + ((entries ++ more).length - (entries.length - limit) -
      limit) = (entries ++ more).length - limit := by
    rw [List.length_append]
    omega
  rw [same]

theorem trim_trim_append (entries more : List HistoryEntry) :
    History.trim (History.trim entries ++ more) = History.trim (entries ++ more) :=
  drop_drop_append maxEntries entries more

theorem foldl_push (kept entries : List HistoryEntry) (length : kept.length ≤ maxEntries) :
    entries.foldl HistoryLog.push kept = History.trim (kept ++ entries) := by
  induction entries generalizing kept with
  | nil =>
    rw [List.foldl_nil, List.append_nil, History.trim, Nat.sub_eq_zero_of_le length]
    exact List.drop_zero.symm
  | cons entry entries ih =>
    have shorter : (HistoryLog.push kept entry).length ≤ maxEntries := by
      unfold HistoryLog.push
      rw [List.length_drop]
      omega
    have pushed : HistoryLog.push kept entry = History.trim (kept ++ [entry]) := rfl
    rw [List.foldl_cons, ih _ shorter, pushed, trim_trim_append, List.append_assoc]
    rfl

theorem recorded_eq (recordings : List Recording) :
    recorded recordings = History.trim (recordings.map Recording.entry) :=
  foldl_push [] _ (Nat.zero_le _)

/-- The recordings whose entries are still kept. -/
def latest (recordings : List Recording) : List Recording :=
  recordings.drop (recordings.length - maxEntries)

theorem recorded_eq_latest (recordings : List Recording) :
    recorded recordings = (latest recordings).map Recording.entry := by
  rw [recorded_eq, History.trim, latest, List.map_drop, List.length_map]

theorem trim_recorded (recordings : List Recording) :
    History.trim (recorded recordings) = recorded recordings := by
  have trimmed := trim_trim_append (recordings.map Recording.entry) []
  rw [List.append_nil, List.append_nil] at trimmed
  rw [recorded_eq, trimmed]

/-- What is recorded can be written, and the written file is loaded as the latest entries. -/
structure Saves (format : HistoryFormat) (recordings : List Recording) : Prop where
  addsUp : ∀ recording ∈ recordings, recording.byteSum < 2 ^ 64
  saved : ∃ text, renderEntries format (recorded recordings) = .ok text ∧
    ∀ (files : Files) (path : Path), files path = some (.file (StateFiles.toUtf8 text)) →
      ((History.load format path).exec StateFiles.perform files).1 =
        .ok (⟨path, (latest recordings).map Recording.entry, true⟩, none)

theorem load_of_render (documented : format.Documented) {entries : List HistoryEntry} {text : String}
    (rendered : renderEntries format entries = .ok text) {files : Files} {path : Path}
    (written : files path = some (.file (StateFiles.toUtf8 text))) :
    ((History.load format path).exec StateFiles.perform files).1 =
      .ok (⟨path, History.trim entries, true⟩, none) := by
  have parsed := parseEntries_of_render documented rendered
  simp only [History.load, StateFiles.readOrSetAside, Bind.bind, Pure.pure, Program.bind, attempt,
    send, exec, StateFiles.perform, written, StateFiles.fromUtf8_toUtf8, parsed]

/-- One uploaded file. -/
def uploaded (bytes : Nat) : Recording :=
  .row 1790755964 "prod" ⟨.single 0, "a", .upload, 1, 1, bytes, bytes, .done⟩
    [⟨0, 0, .upload, ⟨"/home/me/a"⟩, "/srv/a", "a", bytes, bytes, .completed, 1, none, false, none⟩]

def uploadedText : String :=
  "[[entries]]\nfinished_at = \"2026-09-30T08:12:44Z\"\nconnection = \"prod\"\n" ++
    "direction = \"upload\"\nlabel = \"a\"\nlocal_path = \"/home/me/a\"\n" ++
    "remote_path = \"/srv/a\"\nfiles_done = 1\nfiles_total = 1\nbytes = 42\n" ++
    "result = \"done\"\nfailed_count = 0\nfailed_files = []\n"

def uploadedToml : Toml :=
  .table [("entries", .list [.table [
    ("bytes", .number 42),
    ("connection", .text "prod"),
    ("direction", .text "upload"),
    ("failed_count", .number 0),
    ("failed_files", .list []),
    ("files_done", .number 1),
    ("files_total", .number 1),
    ("finished_at", .text "2026-09-30T08:12:44Z"),
    ("label", .text "a"),
    ("local_path", .text "/home/me/a"),
    ("remote_path", .text "/srv/a"),
    ("result", .text "done")]])]

/-- Crates that write the first entry as it is written, and everything else somehow. -/
noncomputable def uploadedFormat : HistoryFormat where
  toml := .writing uploadedToml uploadedText
  writeDate date := if date = 1790755964 then "2026-09-30T08:12:44Z" else date.repr
  readDate text := if text = "2026-09-30T08:12:44Z" then some 1790755964 else text.toNat?
  mismatch _ := "missing field"

theorem bracket_mem_uploadedText : '[' ∈ uploadedText.toList := by
  unfold uploadedText
  iterate 3 rw [String.toList_append]; apply List.mem_append_left
  decide +kernel

theorem documented_uploadedFormat : uploadedFormat.Documented where
  toml := TomlCrate.documented_writing _ ⟨'[', bracket_mem_uploadedText, by decide⟩
  dates := by
    intro date
    unfold uploadedFormat
    dsimp only
    by_cases isFirst : date = 1790755964
    · rw [if_pos isFirst, if_pos rfl, isFirst]
    · have another : date.repr ≠ "2026-09-30T08:12:44Z" := by
        intro isText
        have dash : '-' ∈ date.repr.toList := by
          rw [isText]
          decide
        exact absurd (isDigit_of_mem_repr dash) (by decide)
      rw [if_neg isFirst, if_neg another, Nat.toNat?_repr]

theorem toToml_uploaded : Toml.table [("entries", .list ((recorded [uploaded 42]).map
      (HistoryEntry.toToml uploadedFormat)))] = uploadedToml :=
  rfl

end Porthmos
