/-!
Messages about a run, kept as data until they are shown.
-/

namespace PhpAudit

inductive LogLevel where
  | debug | info | warning | error
deriving DecidableEq, Inhabited

namespace LogLevel

def name : LogLevel → String
  | debug => "DEBUG"
  | info => "INFO"
  | warning => "WARNING"
  | error => "ERROR"

def severity : LogLevel → Nat
  | debug => 0
  | info => 1
  | warning => 2
  | error => 3

end LogLevel

/-- The part of the program that speaks. -/
inductive Topic where
  | command | configuration | rules | audit | source | reader | types
deriving DecidableEq, Inhabited

def Topic.name : Topic → String
  | command => "phanalist"
  | configuration => "phanalist.config"
  | rules => "phanalist.rules.base"
  | audit => "phanalist.analyse"
  | source => "phanalist.source"
  | reader => "phanalist.parser"
  | types => "phanalist.type_flow"

structure LogRecord where
  level : LogLevel
  topic : Topic
  message : String
deriving DecidableEq, Inhabited

abbrev Log := List LogRecord

namespace LogRecord

/-- The record without its level. -/
def body (record : LogRecord) : String := record.topic.name ++ ": " ++ record.message

/-- The record with its level in five characters between brackets. -/
def line (record : LogRecord) : String :=
  "[" ++ String.ofList ((record.level.name.toList ++ [' ', ' ', ' ', ' ', ' ']).take 5) ++ "] " ++
    record.body

end LogRecord

def Log.atLeast (log : Log) (level : LogLevel) : Log :=
  List.filter (fun record => level.severity ≤ record.level.severity) log

end PhpAudit
