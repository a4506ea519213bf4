import LiveTest.Editor.State
import LiveTest.Text.Blank
/-!
Sending commands to every running session of the editor.  A session that cannot be reached does
not keep the others from their command.
-/

namespace LiveTest

/-- How the sessions of the editor answer. -/
structure Sessions where
  /-- The text that lists the sessions, if they can be listed. -/
  listing : Option String
  /-- Whether a command reaches a session. -/
  reaches : String → Bool

namespace Sessions

/-- The word that marks a session that has ended. -/
def deadMark : List Char := "(dead)".toList

/-- The names in a listing: a line each, without the dead sessions. -/
def names (listing : String) : List String :=
  ((Text.lines listing.toList).map Text.trim).filterMap fun line =>
    if line = [] || Text.containsChars deadMark line then none else some (String.ofList line)

/-- The output of a listing without the ends of lines at its end. -/
def trimEnds (s : String) : String :=
  String.ofList ((s.toList.reverse.dropWhile fun c => c = '\n' || c = '\r').reverse)

/-- The running sessions. -/
def running (s : Sessions) : Except EditorError (List String) :=
  match s.listing with
  | none => .error .listSessions
  | some listing => .ok (names (trimEnds listing))

/-- A command as it is handed to a session, for one of its clients. -/
def payload (client command : String) : String :=
  "eval -client " ++ client ++ " '" ++ command ++ "'"

/-- A session can be addressed by its name: there is no null character in it. -/
def isAddressable (name : String) : Bool := name.toList.all (· ≠ '\x00')

/-- Sending a command to one session. -/
structure Sending where
  session : String
  handed : String
  result : Except EditorError Unit

/-- A command reaches a session. -/
def accepts (s : Sessions) (name : String) : Bool := isAddressable name && s.reaches name

/-- Send a command to a session. -/
def send (s : Sessions) (client command name : String) : Sending :=
  ⟨name, payload client command,
    if s.accepts name then .ok () else .error (.sendCommand name)⟩

/-- What sending to one session after the other has led to so far. -/
structure Progress where
  sendings : List Sending
  log : List LogLine
  firstError : Option EditorError

/-- The first error is kept, and all are logged. -/
def Progress.add (p : Progress) (sending : Sending) : Progress :=
  match sending.result with
  | .ok () => { p with sendings := p.sendings ++ [sending] }
  | .error e =>
    ⟨p.sendings ++ [sending], p.log ++ [.warn e.message], p.firstError.or (some e)⟩

/-- Send a command to each of these sessions. -/
def sendEach (s : Sessions) (client command : String) (names : List String) (start : Progress) :
    Progress :=
  names.foldl (fun p name => p.add (s.send client command name)) start

/-- What sending to all sessions leads to. -/
structure Delivery where
  sendings : List Sending
  log : List LogLine
  result : Except EditorError Unit

/-- Every session that could be addressed, with what it was handed. -/
def Delivery.tried (d : Delivery) : List (String × String) :=
  (d.sendings.filter fun sending => isAddressable sending.session).map fun sending =>
    (sending.session, sending.handed)

/-- Send a command to every running session; the first failure is the result. -/
def sendAll (s : Sessions) (client command : String) : Delivery :=
  match s.running with
  | .error e => ⟨[], [], .error e⟩
  | .ok names =>
    let note := "sending command to kakoune session_count=" ++ toString names.length
    let p := s.sendEach client command names ⟨[], [.debug note], none⟩
    ⟨p.sendings, p.log, match p.firstError with
      | some e => .error e
      | none => .ok ()⟩

end Sessions
end LiveTest
