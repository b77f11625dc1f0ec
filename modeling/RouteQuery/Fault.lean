import RouteQuery.Json.Basic
import RouteQuery.RoutePath

/-! What can go wrong between a query and its routes, and the wording of each case. -/
namespace RouteQuery

/-- What a refused name was to be the name of. -/
inductive Named where
  | task | path | options | descriptor
  deriving DecidableEq, Repr

def Named.word : Named → String
  | task => "task"
  | path => "path"
  | options => "options"
  | descriptor => "descriptor"

/-- What options were to be the options of. -/
inductive OptionsTarget where
  | staticFiles | bodyParser
  deriving DecidableEq, Repr

inductive OptionsFault where
  /-- What was given has no JSON form, for a reason that its type gives. -/
  | unserializable (reason : String)
  | unreadable (target : OptionsTarget) (value : Json)
  deriving DecidableEq, Repr

/-- The texts for what is wrong with options and with regular expressions. They belong to the libraries that
read these. -/
structure Wording where
  options : OptionsTarget → Json → String
  pattern : String → String

def OptionsFault.reason (w : Wording) : OptionsFault → String
  | unserializable reason => reason
  | unreadable target value => w.options target value

inductive PathFault where
  /-- A `:` without a name, at this character of the path. -/
  | namelessParameter (position : Nat)
  /-- The regular expression for the path is malformed or too large. -/
  | badPattern (pattern : String)
  deriving DecidableEq, Repr

def PathFault.reason (w : Wording) : PathFault → String
  | namelessParameter position => "parameter at position " ++ toString position ++ " has no name"
  | badPattern pattern => w.pattern pattern

/-- Why a path leads nowhere. -/
inductive LookupFault where
  | absent | notDirectory | nameTooLong | zeroByte
  deriving DecidableEq, Repr

/-- Why there is no text to be read under a path. -/
inductive FileFault where
  | unreachable (fault : LookupFault)
  | directory
  | notUtf8
  deriving DecidableEq, Repr

def LookupFault.reason : LookupFault → String
  | absent => "No such file or directory (os error 2)"
  | notDirectory => "Not a directory (os error 20)"
  | nameTooLong => "File name too long (os error 36)"
  | zeroByte => "file name contained an unexpected NUL byte"

def FileFault.reason : FileFault → String
  | unreachable fault => fault.reason
  | directory => "Is a directory (os error 21)"
  | notUtf8 => "stream did not contain valid UTF-8"

/-- What a descriptor was applied to. -/
inductive HookTarget where
  | application | router
  deriving DecidableEq, Repr

def HookTarget.phrase : HookTarget → String
  | application => "the application"
  | router => "a path router"

inductive FaultKind where
  | malformed | invalid | failed | missing | io
  deriving DecidableEq, Repr

inductive Fault where
  | namelessDescriptor (line : String)
  | valuelessDescriptor (name : String)
  | malformedQuery (message : String)
  | emptyQuery
  | noPaths
  /-- A function without a name of its own, by the name of its type. -/
  | anonymousTask (typeName : String)
  | invalidName (what : Named) (name : String)
  | duplicateTask (name : String)
  | duplicateDescriptor (name : String)
  | missingOptions (name : String)
  | invalidOptions (name : String) (fault : OptionsFault)
  | missingArgument (descriptor argument : String)
  | invalidPath (path : RoutePath) (fault : PathFault)
  | wrongTarget (descriptor : String) (target : HookTarget)
  | inconsistentSchema (message : String)
  | failedQuery (errors : Nat)
  | unknownTask (name : String)
  | unknownDescriptor (name : String)
  | unreadableFile (fault : FileFault)
  deriving DecidableEq, Repr

namespace Fault

def kind : Fault → FaultKind
  | namelessDescriptor _ | valuelessDescriptor _ | malformedQuery _ => .malformed
  | inconsistentSchema _ | failedQuery _ => .failed
  | unknownTask _ | unknownDescriptor _ => .missing
  | unreadableFile _ => .io
  | _ => .invalid

def message (w : Wording) : Fault → String
  | namelessDescriptor line => "descriptor @name is missing in `" ++ line ++ "`"
  | valuelessDescriptor name =>
    "descriptor @" ++ name ++ " value is missing, did you forget a `:` or `;`?"
  | malformedQuery message => "query syntax error: " ++ message
  | emptyQuery => "query is empty"
  | noPaths => "no express paths were specified, check your query"
  | anonymousTask typeName => "task function cannot be anonymous (found `" ++ typeName ++ "`)"
  | invalidName what name => "invalid " ++ what.word ++ " name `" ++ name ++ "`"
  | duplicateTask name => "task with the name " ++ name ++ " already exists"
  | duplicateDescriptor name => "descriptor " ++ name ++ " already exists"
  | missingOptions name => "options `" ++ name ++ "` are missing"
  | invalidOptions name fault => "options `" ++ name ++ "` are invalid: " ++ fault.reason w
  | missingArgument descriptor argument => "@" ++ descriptor ++ " " ++ argument ++ " is undefined"
  | invalidPath path fault => "invalid route path `" ++ path.text ++ "`: " ++ fault.reason w
  | wrongTarget descriptor target =>
    "descriptor @" ++ descriptor ++ " cannot be applied to " ++ target.phrase
  | inconsistentSchema message => "schema failed to compile: " ++ message
  | failedQuery errors =>
    "could not query internal graph (" ++ toString errors ++ " error(s))"
  | unknownTask name => "could not find " ++ name ++ " in tasks"
  | unknownDescriptor name => "there are no hooks provided for " ++ name
  | unreadableFile fault => "IO error: " ++ fault.reason

end Fault
end RouteQuery
