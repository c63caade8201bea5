import ClusterTrace.Trace.Event

/-!
# The rows of a trace

A trace starts with any header: all records up to the first whose first field is a tick, a run of
digits for a number of 64 bits. From there on every record is a row `tick,kind,params…`, except for
records of one empty field, which are passed over. Reading gives all events or the first fault.
-/

namespace ClusterTrace

open Delimited (Record Undecodable)

/-- Reads a tick: digits only, without a sign. -/
def readTick? (s : String) : Option Nat := (numeral? s.toList).bind fitting

def firstField (r : Record) : String := r.fields.head?.getD ""

/-- The record starts with a tick, as the first row of a trace does. -/
def startsRows (r : Record) : Bool := (readTick? (firstField r)).isSome

def isBlankRecord (r : Record) : Bool := r.fields.length = 1 && firstField r = ""

def readRow (r : Record) : Except TraceFault Event :=
  match readTick? (firstField r) with
  | none => .error (.invalidTick r.line (firstField r))
  | some tick =>
    match r.fields with
    | _ :: kind :: params =>
      if kind = "" then .error (.missingKind r.line) else .ok ⟨r.line, tick, kind, params⟩
    | _ => .error (.missingKind r.line)

/-- Reads the remaining records, knowing whether the rows have begun. The events read so far are
kept in reverse. -/
def eventsFrom (begun : Bool) (done : List Event) :
    List (Except Undecodable Record) → Except TraceFault (List Event)
  | [] => .ok done.reverse
  | .error cause :: _ => .error (.malformedRow cause.line (.undecodable cause))
  | .ok r :: rest =>
    if !begun && !startsRows r then eventsFrom false done rest
    else if isBlankRecord r then eventsFrom true done rest
    else
      match readRow r with
      | .error fault => .error fault
      | .ok e => eventsFrom true (e :: done) rest

def eventsOfRecords (records : List (Except Undecodable Record)) : Except TraceFault (List Event) :=
  eventsFrom false [] records

def readTrace (bytes : Bytes) : Except TraceFault (List Event) :=
  eventsOfRecords (Delimited.records bytes)

end ClusterTrace
