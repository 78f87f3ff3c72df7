import DiskGauge.Bench.Client
import DiskGauge.Text.Basic

namespace DiskGauge.Bench
open DiskGauge.Json

structure Expectation where
  topic : String
  count : Nat
deriving DecidableEq, Repr

structure Harness where
  client : Client
  -- Oldest first.
  expectations : List Expectation
deriving DecidableEq, Repr

namespace Harness

def new : Harness := ⟨.new, []⟩

def onClient (h : Harness) (f : Client → Client) : Harness := { h with client := f h.client }

def expect (h : Harness) (topic : String) (count : Nat) : Harness :=
  { h with expectations := h.expectations ++ [⟨topic, count⟩] }

def sendUsage (h : Harness) (node : String) (percent : Double) (free : Int) :
    Except Fault Harness :=
  match h.client.simulateIncoming usageTopic (usageEvent node [("/", percent, free)]).bytes with
  | .ok client => .ok { h with client }
  | .error fault => .error fault

def verify (h : Harness) : Except Fault Unit :=
  let seen (e : Expectation) : Nat := (h.client.messagesOn e.topic).length
  match h.expectations.find? fun e => seen e ≠ e.count with
  | none => .ok ()
  | some e =>
    .error (.text ("Topic '" ++ e.topic ++ "': expected " ++ toString e.count ++
      " messages, got " ++ toString (seen e)))

def member? (name : String) : List (String × Value) → Option Value
  | [] => none
  | (other, value) :: rest => if other = name then some value else member? name rest

-- The value at a path, whose names are separated by points; every step on the way must be an object.
def fieldAt? : List (List Char) → Value → Option Value
  | [], value => some value
  | name :: rest, .object members =>
    match member? (String.ofList name) members with
    | some value => fieldAt? rest value
    | none => none
  | _ :: _, _ => none

def checkField (h : Harness) (topic path : String) (expected : Value) : Except Fault Unit :=
  match h.client.lastJson topic with
  | .error fault => .error fault
  | .ok none => .error (.text ("No message on " ++ topic))
  | .ok (some value) =>
    match fieldAt? (Text.split '.' path.toList) value with
    | none =>
      .error (.text ("Field '" ++ path ++ "' not found in latest message on " ++ topic))
    | some actual =>
      if actual.same expected then .ok ()
      else .error (.text ("Field '" ++ path ++ "' mismatch: expected " ++ expected.shown ++
        ", got " ++ actual.shown))

def countTopic (topic : String) : List (String × Nat) → List (String × Nat)
  | [] => [(topic, 1)]
  | (other, count) :: rest =>
    if other = topic then (other, count + 1) :: rest else (other, count) :: countTopic topic rest

def topicCounts (h : Harness) : List (String × Nat) :=
  h.client.published.foldl (fun counts m => countTopic m.topic counts) []

def reset (h : Harness) : Harness := ⟨h.client.clear, []⟩

end Harness

end DiskGauge.Bench
