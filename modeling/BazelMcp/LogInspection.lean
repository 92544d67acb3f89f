import BazelMcp.Evidence
import BazelMcp.Redaction

/-! Inspection of an invocation's log. Evidence is redacted when it is stored;
where no evidence is stored, the page is made from what the output files hold.
The files of one invocation change with its run, and a request may come after
any of the changes. -/
namespace BazelMcp.LogInspection
open Text Utf8 Evidence Redaction List

inductive FileEntry (α : Type) where
  | missing
  | unreadable
  | present (content : α)
  deriving DecidableEq

/-- What the service takes from other libraries: the terminal text of raw
output, cursors, and records written as JSON, which escapes line ends. -/
structure Codecs where
  normalizeTerminalText : List UInt8 → List Char
  cursor : CursorCodec
  toJson : EvidenceRecord → List Char
  fromJson : List Char → Option EvidenceRecord
  oneLine (record : EvidenceRecord) : '\n' ∉ toJson record
  unbroken (record : EvidenceRecord) : (toJson record).getLast? ≠ some '\r'
  read_written (record : EvidenceRecord) : fromJson (toJson record) = some record

structure InvocationService where
  codecs : Codecs
  redactor : Redactor

structure Invocation where
  id : InvocationId
  workspace : List Char
  command : BazelCommand

structure InvocationFiles where
  stdout : FileEntry (List UInt8) := .missing
  stderr : FileEntry (List UInt8) := .missing
  evidence : FileEntry (List Char) := .missing

def completeBepLogLimit : Nat := 2*1024*1024
def fallbackLogLimit : Nat := 8*1024*1024

def readBoundedTail (file : FileEntry (List UInt8)) (maxBytes : Nat) : Except InspectError (List UInt8) :=
  match file with
  | .missing => .ok []
  | .unreadable => .error .io
  | .present content => .ok (content.drop (content.length-maxBytes))

def readTails (files : InvocationFiles) (maxBytes : Nat) : Except InspectError (List UInt8 × List UInt8) :=
  match readBoundedTail files.stdout maxBytes with
  | .error error => .error error
  | .ok stdout =>
    match readBoundedTail files.stderr maxBytes with
    | .error error => .error error
    | .ok stderr => .ok (stdout,stderr)

namespace InvocationService
variable (service : InvocationService) (invocation : Invocation)

def redactRecord (workspace : List Char) (record : EvidenceRecord) : EvidenceRecord :=
  { record with text := service.redactor.redactBounded (replace workspace "<workspace>".toList record.text) (4*1024) }

def persistFailureEvidence (workspace : List Char) (command : BazelCommand) (failed : Bool) (stdout stderr : List UInt8) : List Char :=
  (failureEvidenceRecords service.codecs.normalizeTerminalText command failed stdout stderr).flatMap fun record =>
    service.codecs.toJson (service.redactRecord workspace record) ++ ['\n']

-- A failed read or write leaves the evidence as it was: it is replaced by a rename.
def captureEvidence (files : InvocationFiles) (completeBep : Bool) (exitCode : Option Int) : InvocationFiles :=
  match readTails files (if completeBep then completeBepLogLimit else fallbackLogLimit) with
  | .error _ => files
  | .ok (stdout,stderr) =>
    let failed := decide (exitCode ≠ some 0)
    if shouldPersistFailureEvidence invocation.command failed then
      let content := service.persistFailureEvidence invocation.workspace invocation.command failed stdout stderr
      { files with evidence := .present content }
    else files

/-- The records a page is made of, from the file of stored evidence or, for the log, from the outputs. -/
def recordsFor (path : FileEntry (List Char)) (files : InvocationFiles) (view : InspectView) :
    Except InspectError (List EvidenceRecord) :=
  match path with
  | .missing =>
    if view = .log then
      match readTails files (1024*1024) with
      | .error error => .error error
      | .ok (stdout,stderr) =>
        .ok (failureEvidenceRecords service.codecs.normalizeTerminalText (.custom "retained") true stdout stderr)
    else .error .io
  | .unreadable => .error .io
  | .present content =>
    match (lines content).mapM service.codecs.fromJson with
    | none => .error .json
    | some records => .ok records

def startRecord (request : InspectRequest) (invocationId : InvocationId) : Except InspectError Nat :=
  match request.cursor with
  | none => .ok 0
  | some value =>
    match LogCursor.decodeFor service.codecs.cursor value invocationId request.view request.filter with
    | .error error => .error error
    | .ok cursor => .ok cursor.nextRecord

def readEvidencePage (path : FileEntry (List Char)) (files : InvocationFiles) (request : InspectRequest) :
    Except InspectError EvidencePage :=
  match request.invocationId with
  | none => .error .invalidCursor
  | some invocationId =>
    match service.startRecord request invocationId with
    | .error error => .error error
    | .ok start =>
      match service.recordsFor path files request.view with
      | .error error => .error error
      | .ok records => pageEvidenceRecords service.codecs.cursor records start request invocationId

def inspectLog (files : InvocationFiles) (request : InspectRequest) : Except InspectError EvidencePage :=
  match request.invocationId with
  | none => .error .invalidCursor
  | some invocationId =>
    if invocationId ≠ invocation.id then .error .invocationNotFound
    else service.readEvidencePage files.evidence files request

end InvocationService

/-! ### The files along a run -/

/-- The child process and the retention may leave any output files; evidence
comes only from a capture, and goes when it is staged for removal. -/
inductive FileEvent where
  | stdoutBecomes (entry : FileEntry (List UInt8))
  | stderrBecomes (entry : FileEntry (List UInt8))
  | captured (completeBep : Bool) (exitCode : Option Int)
  | evidenceStaged

def step (service : InvocationService) (invocation : Invocation) (files : InvocationFiles) : FileEvent → InvocationFiles
  | .stdoutBecomes entry => { files with stdout := entry }
  | .stderrBecomes entry => { files with stderr := entry }
  | .captured completeBep exitCode => service.captureEvidence invocation files completeBep exitCode
  | .evidenceStaged => { files with evidence := .missing }

def filesAfter (service : InvocationService) (invocation : Invocation) (events : List FileEvent) : InvocationFiles :=
  events.foldl (step service invocation) {}

def Held (service : InvocationService) (invocation : Invocation) (events : List FileEvent) (stdout stderr : List UInt8) : Prop :=
  ∃ before maxBytes, before <+: events ∧ readTails (filesAfter service invocation before) maxBytes = .ok (stdout,stderr)

/-- The text is what the redactor makes of an evidence line of the captured output. -/
def PassedRedactor (service : InvocationService) (invocation : Invocation) (events : List FileEvent) (item : List Char) : Prop :=
  ∃ stdout stderr command failed, Held service invocation events stdout stderr ∧
    ∃ record ∈ failureEvidenceRecords service.codecs.normalizeTerminalText command failed stdout stderr,
      service.redactor.redactBounded (replace invocation.workspace "<workspace>".toList record.text) (4*1024) = item

section
variable {service : InvocationService} {invocation : Invocation} {events : List FileEvent}

theorem filesAfter_push (event : FileEvent) :
    filesAfter service invocation (events ++ [event]) = step service invocation (filesAfter service invocation events) event := by
  simp [filesAfter]

theorem Held.push {stdout stderr : List UInt8} (held : Held service invocation events stdout stderr) (event : FileEvent) :
    Held service invocation (events ++ [event]) stdout stderr := by
  obtain ⟨before,maxBytes,isPrefix,tails⟩ := held
  exact ⟨before,maxBytes,isPrefix.trans (prefix_append _ _),tails⟩

/-- Stored evidence is the redacted evidence of output that the files have held. -/
def Stored (service : InvocationService) (invocation : Invocation) (events : List FileEvent) (content : List Char) : Prop :=
  ∃ stdout stderr failed, Held service invocation events stdout stderr ∧
    content = service.persistFailureEvidence invocation.workspace invocation.command failed stdout stderr

theorem Stored.push {content : List Char} (stored : Stored service invocation events content) (event : FileEvent) :
    Stored service invocation (events ++ [event]) content := by
  obtain ⟨stdout,stderr,failed,held,same⟩ := stored
  exact ⟨stdout,stderr,failed,held.push event,same⟩

theorem captureEvidence_cases (files : InvocationFiles) (completeBep : Bool) (exitCode : Option Int) :
    service.captureEvidence invocation files completeBep exitCode = files ∨
      ∃ stdout stderr failed maxBytes, readTails files maxBytes = .ok (stdout,stderr) ∧
        service.captureEvidence invocation files completeBep exitCode = ⟨files.stdout,files.stderr,
          .present (service.persistFailureEvidence invocation.workspace invocation.command failed stdout stderr)⟩ := by
  unfold InvocationService.captureEvidence
  dsimp only
  split
  · exact .inl rfl
  rename_i stdout stderr tails
  split
  · exact .inr ⟨stdout,stderr,_,_,tails,rfl⟩
  · exact .inl rfl

/-- By induction on the run from its end: only a capture adds evidence. -/
theorem evidence_stored {content : List Char} (present : (filesAfter service invocation events).evidence = .present content) :
    Stored service invocation events content := by
  induction events using List.reverseRecOn with
  | nil => cases present
  | append_singleton before event ih =>
    rw [filesAfter_push] at present
    cases event with
    | stdoutBecomes entry | stderrBecomes entry => exact (ih present).push _
    | evidenceStaged => cases present
    | captured completeBep exitCode =>
      simp only [step] at present
      rcases captureEvidence_cases (filesAfter service invocation before) completeBep exitCode with
        same | ⟨stdout,stderr,failed,maxBytes,tails,same⟩
      · rw [same] at present
        exact (ih present).push _
      · rw [same] at present
        cases present
        exact ⟨stdout,stderr,failed,⟨before,maxBytes,prefix_append _ _,tails⟩,rfl⟩

end

/-! ### Reading stored evidence -/

theorem lines_flatMap (codecs : Codecs) (records : List EvidenceRecord) :
    lines (records.flatMap fun record => codecs.toJson record ++ ['\n']) = records.map codecs.toJson := by
  induction records with
  | nil => rfl
  | cons record rest ih =>
    have line := linesGo_line [] (codecs.toJson record) (rest.flatMap fun record => codecs.toJson record ++ ['\n'])
      (codecs.oneLine record) (codecs.unbroken record)
    rw [flatMap_cons,append_assoc,map_cons,← ih]
    exact line

theorem records_read (codecs : Codecs) (records : List EvidenceRecord) :
    (lines (records.flatMap fun record => codecs.toJson record ++ ['\n'])).mapM codecs.fromJson = some records := by
  rw [lines_flatMap]
  induction records with
  | nil => rfl
  | cons record rest ih => simp [codecs.read_written,ih]

section
variable {service : InvocationService} {invocation : Invocation} {events : List FileEvent}

theorem Stored.records {content : List Char} (stored : Stored service invocation events content)
    {records : List EvidenceRecord} (read : (lines content).mapM service.codecs.fromJson = some records)
    {record : EvidenceRecord} (inside : record ∈ records) : PassedRedactor service invocation events record.text := by
  obtain ⟨stdout,stderr,failed,held,same⟩ := stored
  have written : content = ((failureEvidenceRecords service.codecs.normalizeTerminalText invocation.command failed stdout stderr).map
      (service.redactRecord invocation.workspace)).flatMap fun record => service.codecs.toJson record ++ ['\n'] := by
    rw [same,flatMap_map]
    rfl
  rw [written,records_read] at read
  cases read
  obtain ⟨raw,found,rfl⟩ := mem_map.mp inside
  exact ⟨stdout,stderr,invocation.command,failed,held,raw,found,rfl⟩

variable {request : InspectRequest}

theorem inspectLog_items {files : InvocationFiles} {page : EvidencePage}
    (ok : service.inspectLog invocation files request = .ok page) {item : List Char} (shown : item ∈ page.items) :
    ∃ records, service.recordsFor files.evidence files request.view = .ok records ∧ ∃ record ∈ records, record.text = item := by
  unfold InvocationService.inspectLog at ok
  split at ok
  · cases ok
  split at ok
  · cases ok
  rename_i invocationId known _
  unfold InvocationService.readEvidencePage at ok
  rw [known] at ok
  dsimp only at ok
  split at ok
  · cases ok
  split at ok
  · cases ok
  · rename_i records found
    exact ⟨records,found,pageEvidenceRecords_items ok shown⟩

theorem stored_passes (exists_evidence : (filesAfter service invocation events).evidence ≠ .missing) {page : EvidencePage}
    (ok : service.inspectLog invocation (filesAfter service invocation events) request = .ok page) {item : List Char}
    (shown : item ∈ page.items) : PassedRedactor service invocation events item := by
  obtain ⟨records,found,record,inside,rfl⟩ := inspectLog_items ok shown
  unfold InvocationService.recordsFor at found
  split at found
  · rename_i missing
    exact absurd missing exists_evidence
  · cases found
  rename_i content present
  split at found
  · cases found
  · rename_i read
    cases found
    exact (evidence_stored present).records read inside

end

/-! ### Redactors that hide every text -/

def whole : Regex where
  findIter value := between [] value
  ordered value := by
    have spans := ordered_between [] value []
    rw [List.nil_append,List.append_nil] at spans
    exact spans

def atStart : Regex where
  findIter _ := between [] []
  ordered value := ordered_between [] [] value

theorem whole_replaces (text : List Char) : replaceAllBounded whole text (4*1024) = replacement := by
  have replaced : replaceAll whole text = replacement := by
    have spans := replaceFrom_between [] text []
    simp only [nil_append,append_nil] at spans
    exact spans
  rw [replaceAllBounded_fits,replaced]
  rw [replaced]
  decide

theorem atStart_replaces : replaceAllBounded atStart replacement (4*1024) = replacement ++ replacement := by
  have replaced : replaceAll atStart replacement = replacement ++ replacement := replaceFrom_between [] [] replacement
  rw [replaceAllBounded_fits,replaced]
  rw [replaced]
  decide

/-- No text is safe from being redacted: some redactor gives it for no input at all. -/
theorem never_given (item : List Char) : ∃ redactor : Redactor, ∀ text, redactor.redactBounded text (4*1024) ≠ item := by
  by_cases same : item = replacement
  · refine ⟨⟨[whole,atStart]⟩,fun text given => ?_⟩
    have twice : (Redactor.mk [whole,atStart]).redactBounded text (4*1024) = replacement ++ replacement := by
      simp only [Redactor.redactBounded,foldl_cons,foldl_nil,whole_replaces,atStart_replaces]
    rw [twice,same] at given
    exact absurd (congrArg List.length given) (by decide)
  · refine ⟨⟨[whole]⟩,fun text given => ?_⟩
    have once : (Redactor.mk [whole]).redactBounded text (4*1024) = replacement := by
      simp only [Redactor.redactBounded,foldl_nil,whole_replaces]
    rw [once] at given
    exact same given.symm

/-! ### The redactor does not decide where a page comes from -/

section
variable (codecs : Codecs) (first second : Redactor) (invocation : Invocation) (events : List FileEvent)

structure Alike (left right : InvocationFiles) : Prop where
  stdout : left.stdout = right.stdout
  stderr : left.stderr = right.stderr
  missing : left.evidence = .missing ↔ right.evidence = .missing

variable {invocation first second}

variable {left right : InvocationFiles}

theorem Alike.readTails (alike : Alike left right) (maxBytes : Nat) :
    readTails left maxBytes = LogInspection.readTails right maxBytes := by
  unfold LogInspection.readTails
  rw [alike.stdout,alike.stderr]

theorem Alike.captureEvidence (alike : Alike left right) (completeBep : Bool) (exitCode : Option Int) :
    Alike (InvocationService.captureEvidence ⟨codecs,first⟩ invocation left completeBep exitCode)
      (InvocationService.captureEvidence ⟨codecs,second⟩ invocation right completeBep exitCode) := by
  unfold InvocationService.captureEvidence
  dsimp only
  rw [alike.readTails]
  split
  · exact alike
  · split
    · exact ⟨alike.stdout,alike.stderr,⟨fun present => (by cases present),fun present => (by cases present)⟩⟩
    · exact alike

theorem Alike.step (alike : Alike left right) (event : FileEvent) :
    Alike (step ⟨codecs,first⟩ invocation left event) (LogInspection.step ⟨codecs,second⟩ invocation right event) := by
  cases event with
  | stdoutBecomes entry => exact ⟨rfl,alike.stderr,alike.missing⟩
  | stderrBecomes entry => exact ⟨alike.stdout,rfl,alike.missing⟩
  | captured completeBep exitCode =>
    unfold LogInspection.step
    exact alike.captureEvidence codecs completeBep exitCode
  | evidenceStaged => exact ⟨alike.stdout,alike.stderr,Iff.rfl⟩

theorem filesAfter_alike :
    Alike (filesAfter ⟨codecs,first⟩ invocation events) (filesAfter ⟨codecs,second⟩ invocation events) := by
  induction events using List.reverseRecOn with
  | nil =>
    simp only [filesAfter,foldl_nil]
    exact ⟨rfl,rfl,Iff.rfl⟩
  | append_singleton before event ih =>
    rw [filesAfter_push,filesAfter_push]
    exact ih.step codecs event

theorem inspectLog_unredacted (request : InspectRequest) (missing : (filesAfter ⟨codecs,first⟩ invocation events).evidence = .missing) :
    InvocationService.inspectLog ⟨codecs,first⟩ invocation (filesAfter ⟨codecs,first⟩ invocation events) request =
      InvocationService.inspectLog ⟨codecs,second⟩ invocation (filesAfter ⟨codecs,second⟩ invocation events) request := by
  have alike : Alike (filesAfter ⟨codecs,first⟩ invocation events) (filesAfter ⟨codecs,second⟩ invocation events) :=
    filesAfter_alike codecs events
  have both := alike.missing.mp missing
  unfold InvocationService.inspectLog InvocationService.readEvidencePage InvocationService.recordsFor InvocationService.startRecord
  rw [missing,both]
  rw [alike.readTails]

end

def escape (char : Char) : List Char :=
  if char = '\n' then ['\\','n'] else if char = '\\' || char = '"' then ['\\',char] else [char]

def quoted (text : List Char) : List Char := text.flatMap escape ++ ['"']

def unquote : List Char → Option (List Char × List Char)
  | [] => none
  | char::rest =>
    if char = '"' then some ([],rest)
    else if char = '\\' then
      match rest with
      | [] => none
      | code::rest => (unquote rest).map fun (text,left) => ((if code = 'n' then '\n' else code)::text,left)
    else (unquote rest).map fun (text,left) => (char::text,left)

theorem unquote_quoted (text rest : List Char) : unquote (quoted text ++ rest) = some (text,rest) := by
  induction text with
  | nil =>
    rw [unquote.eq_def]
    simp [quoted]
  | cons char text ih =>
    have split : quoted (char::text) ++ rest = escape char ++ (quoted text ++ rest) := by simp [quoted]
    rw [split]
    by_cases newline : char = '\n'
    · simp [escape,newline,unquote,ih]
    by_cases special : char = '\\' ∨ char = '"'
    · rcases special with rfl | rfl
      · simp [escape,unquote,ih]
      · simp [escape,unquote,ih]
    · obtain ⟨slash,quote⟩ := not_or.mp special
      rw [unquote.eq_def]
      simp [escape,newline,slash,quote,ih]

theorem quoted_oneLine (text : List Char) : '\n' ∉ quoted text := by
  intro inside
  rcases mem_append.mp inside with inside | last
  · obtain ⟨char,_,escaped⟩ := mem_flatMap.mp inside
    unfold escape at escaped
    split at escaped
    · simp at escaped
    rename_i differs
    split at escaped
    · simp [Ne.symm differs] at escaped
    · exact differs (mem_singleton.mp escaped).symm
  · simp at last

def plainCodecs : Codecs where
  normalizeTerminalText bytes := bytes.map fun byte => Char.ofNat byte.toNat
  cursor := ⟨fun _ => some [],fun _ => none⟩
  toJson record := (match record.label with | none => ['n'] | some label => 's' :: quoted label) ++ quoted record.text
  fromJson line := match line with
    | 'n'::rest => match unquote rest with
      | some (text,[]) => some ⟨none,text⟩
      | _ => none
    | 's'::rest => match unquote rest with
      | some (label,rest) => match unquote rest with
        | some (text,[]) => some ⟨some label,text⟩
        | _ => none
      | none => none
    | _ => none
  oneLine record := by
    cases record.label with
    | none | some label => simp [quoted_oneLine]
  unbroken record := by
    unfold quoted
    rw [← List.append_assoc,List.getLast?_concat]
    decide
  read_written record := by
    obtain ⟨label,text⟩ := record
    have last := unquote_quoted text []
    rw [List.append_nil] at last
    cases label with
    | none => simp [last]
    | some label => simp [unquote_quoted,last]

def printed : List FileEvent := [.stdoutBecomes (.present [116,111,107,101,110]),.captured true (some 0)]

end BazelMcp.LogInspection
