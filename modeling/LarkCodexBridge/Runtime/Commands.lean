import LarkCodexBridge.Runtime.Live

/-!
# Bridge commands

The first-stage commands and their parser. Text that is no recognized command is ordinary input (`none`), a recognized
command with wrong arguments is an error that is answered without running anything.
-/

namespace LarkCodexBridge.Runtime

open Limits

/-- One recognized command. -/
inductive BridgeCommand where
  | new
  | stop
  | status
  | resume (selector : Option String)
  | cd (path : Option String)
  | threads (cursor : Option String)
  | adopt (selector : String)
  | release
  | help
  | info
  | config (action : Option ConfigPatch) (cancel : Bool)
  deriving DecidableEq

inductive CommandParseError where
  | tooLong
  | missingArgument (command : String)
  | unexpectedArgument (command : String)
  | handoffConfirmationRequired
  | invalidSelector
  | invalidConfigValue
  deriving DecidableEq

def commandRequiresOwner : BridgeCommand → Bool
  | .cd _ | .threads _ | .adopt _ | .release | .config _ _ => true
  | .new | .stop | .status | .resume _ | .help | .info => false

/-- The words of a text; `word` is the one being read, last character first. -/
def splitWhitespaceFrom (word : List Char) : List Char → List String
  | [] => if word.isEmpty then [] else [String.ofList word.reverse]
  | c :: cs =>
    if isWhitespace c then
      if word.isEmpty then splitWhitespaceFrom [] cs
      else String.ofList word.reverse :: splitWhitespaceFrom [] cs
    else splitWhitespaceFrom (c :: word) cs

def splitWhitespace (cs : List Char) : List String := splitWhitespaceFrom [] cs

/-- `split_command`: the name up to the first white space, and the rest. -/
def splitCommand (text : List Char) : Option (String × List Char) :=
  match text with
  | '/' :: _ => some (String.ofList (text.takeWhile (!isWhitespace ·)), text.dropWhile (!isWhitespace ·))
  | _ => none

abbrev ParsedCommand := Except CommandParseError (Option BridgeCommand)

def noArgument (arguments : List Char) (command : String) (value : BridgeCommand) : ParsedCommand :=
  if (trim arguments).isEmpty then .ok (some value) else .error (.unexpectedArgument command)

/-- `remaining_token` as it is called: the value is required. -/
def remainingToken : List String → Except CommandParseError String
  | [] => .error (.missingArgument "/config")
  | [first] => .ok first
  | _ :: _ :: _ => .error (.unexpectedArgument "/config")

def parseSandboxToken (value : String) : Except CommandParseError SandboxMode :=
  if value = "read-only" then .ok .readOnly
  else if value = "workspace-write" then .ok .workspaceWrite
  else if value = "danger-full-access" then .ok .dangerFullAccess
  else .error .invalidConfigValue

def configPatch (action : ConfigPatch) : BridgeCommand := .config (some action) false

/-- The allow-list changes of `/config group` and `/config sender`. -/
def parseAllowChange (verb op id : String) : Except CommandParseError ConfigPatch :=
  if verb = "group" ∧ op = "add" then .ok (.groupAdd id)
  else if verb = "group" ∧ (op = "rm" ∨ op = "remove") then .ok (.groupRemove id)
  else if verb = "sender" ∧ op = "add" then .ok (.senderAdd id)
  else if verb = "sender" ∧ (op = "rm" ∨ op = "remove") then .ok (.senderRemove id)
  else .error .invalidConfigValue

/-- The values read so far by `/config apply`. -/
structure ConfigForm where
  model : Option String := none
  effort : Option String := none
  sandbox : Option SandboxMode := none
  approval : Option String := none

/-- `split_once('=')`. -/
def splitOnceEq (token : String) : Option (String × String) :=
  let cs := token.toList
  match cs.dropWhile (· ≠ '=') with
  | [] => none
  | _ :: value => some (String.ofList (cs.takeWhile (· ≠ '=')), String.ofList value)

/-- One `key=value` of `/config apply`. -/
def ConfigForm.set (form : ConfigForm) (key value : String) : Except CommandParseError ConfigForm :=
  if key = "model" then .ok { form with model := some value }
  else if key = "effort" then .ok { form with effort := some value }
  else if key = "sandbox" then (parseSandboxToken value).map fun mode => { form with sandbox := some mode }
  else if key = "approval" then .ok { form with approval := some value }
  else .error .invalidConfigValue

def ConfigForm.read (form : ConfigForm) (token : String) : Except CommandParseError ConfigForm :=
  match splitOnceEq token with
  | none => .error .invalidConfigValue
  | some (key, value) => if value = "" then .error .invalidConfigValue else form.set key value

def parseConfigApply (values : List String) : ParsedCommand := do
  let form ← values.foldlM ConfigForm.read {}
  if values.isEmpty then .error (.missingArgument "/config")
  else .ok (some (configPatch (.form form.model form.effort form.sandbox form.approval)))

def parseConfig (arguments : List Char) : ParsedCommand :=
  match splitWhitespace arguments with
  | [] => .ok (some (.config none false))
  | verb :: values =>
    if verb = "cancel" then
      if values.isEmpty then .ok (some (.config none true)) else .error (.unexpectedArgument "/config")
    else if verb = "model" then (remainingToken values).map fun name => some (configPatch (.model (some name)))
    else if verb = "effort" then (remainingToken values).map fun effort => some (configPatch (.effort (some effort)))
    else if verb = "sandbox" then do
      let sandbox ← parseSandboxToken (← remainingToken values)
      .ok (some (configPatch (.sandbox sandbox)))
    else if verb = "approval" then (remainingToken values).map fun name => some (configPatch (.approval name))
    else if verb = "group" ∨ verb = "sender" then
      match values with
      | [] => .error (.missingArgument "/config")
      | op :: values => do
        let action ← parseAllowChange verb op (← remainingToken values)
        .ok (some (configPatch action))
    else if verb = "apply" then parseConfigApply values
    else .error (.unexpectedArgument "/config")

/-- The bounds of a selector or cursor that is written as one token. -/
def checkSelector (selector : String) : ParsedCommand :=
  if selector = "" ∨ selector.toList.any isAsciiControl then .error .invalidSelector
  else if selector.utf8ByteSize > threadAdoptionSelectorMaxBytes then .error .tooLong
  else .ok (some (.resume (some selector)))

def parseResume (arguments : List Char) : ParsedCommand :=
  match splitWhitespace arguments with
  | [] => .ok (some (.resume none))
  | [first] => if first = "use" then .error (.missingArgument "/resume") else checkSelector first
  | [first, selector] =>
    if first = "use" then checkSelector selector else .error (.unexpectedArgument "/resume")
  | _ :: _ :: _ :: _ => .error (.unexpectedArgument "/resume")

def parseCd (arguments : List Char) : ParsedCommand :=
  let path := trim arguments
  .ok (some (.cd (if path.isEmpty then none else some (String.ofList path))))

def parseThreads (arguments : List Char) : ParsedCommand :=
  match splitWhitespace arguments with
  | [] => .ok (some (.threads none))
  | [cursor] =>
    if cursor.utf8ByteSize > threadDiscoveryCursorMaxBytes then .error .tooLong else .ok (some (.threads (some cursor)))
  | _ :: _ :: _ => .error (.unexpectedArgument "/threads")

def stripSuffix (suffix text : List Char) : Option (List Char) :=
  if suffix.isSuffixOf text then some (text.take (text.length - suffix.length)) else none

/-- The selector of `/adopt`: one JSON string (read by `fromStr`), or one token. -/
def adoptSelector (fromStr : String → Option String) (source : List Char) : Except CommandParseError String :=
  match source with
  | '"' :: _ =>
    match fromStr (String.ofList source) with
    | some selector => .ok selector
    | none => .error .invalidSelector
  | _ => if source.any isWhitespace then .error .invalidSelector else .ok (String.ofList source)

def checkAdopt (selector : String) : ParsedCommand :=
  if selector = "" ∨ selector.toList.any isAsciiControl then .error .invalidSelector
  else if selector.utf8ByteSize > threadAdoptionSelectorMaxBytes then .error .tooLong
  else .ok (some (.adopt selector))

def parseAdopt (fromStr : String → Option String) (arguments : List Char) : ParsedCommand :=
  let arguments := trim arguments
  if arguments.isEmpty then .error (.missingArgument "/adopt")
  else
    match stripSuffix "--handoff-complete".toList arguments with
    | none => .error .handoffConfirmationRequired
    | some before =>
      if (before.getLast?.any isWhitespace) = false then .error .handoffConfirmationRequired
      else
        let source := trimEnd before
        if source.isEmpty then .error (.missingArgument "/adopt")
        else do checkAdopt (← adoptSelector fromStr source)

def recognizedCommands : List String :=
  ["/new", "/reset", "/stop", "/status", "/resume", "/cd", "/threads", "/adopt", "/release", "/help", "/info", "/config"]

/-- `parse_command`; `fromStr` is `serde_json::from_str` for strings. -/
def parseCommand (fromStr : String → Option String) (text : String) : ParsedCommand :=
  let trimmed := trim text.toList
  match splitCommand trimmed with
  | none => .ok none
  | some (name, arguments) =>
    if name ∉ recognizedCommands then .ok none
    else if (String.ofList trimmed).utf8ByteSize > bridgeCommandMaxBytes then .error .tooLong
    else if name = "/new" ∨ name = "/reset" then noArgument arguments "/new" .new
    else if name = "/stop" then noArgument arguments "/stop" .stop
    else if name = "/status" then noArgument arguments "/status" .status
    else if name = "/release" then noArgument arguments "/release" .release
    else if name = "/help" then noArgument arguments "/help" .help
    else if name = "/info" then noArgument arguments "/info" .info
    else if name = "/config" then parseConfig arguments
    else if name = "/resume" then parseResume arguments
    else if name = "/cd" then parseCd arguments
    else if name = "/threads" then parseThreads arguments
    else parseAdopt fromStr arguments

end LarkCodexBridge.Runtime
