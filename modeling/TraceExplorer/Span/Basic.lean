import TraceExplorer.Json.Value

/-!
# Spans

A span is one timed operation of a trace, seen by one service. Times are whole microseconds. The
name of a span and the address of an endpoint are kept as the JSON values they were given as.
-/

namespace TraceExplorer

/-- The side of a call or message that a span reports. -/
inductive Kind where
  | none
  | client
  | server
  | producer
  | consumer
  deriving DecidableEq, Repr

namespace Kind

def all : List Kind := [none, client, server, producer, consumer]

def name : Kind → String
  | none => "NONE"
  | client => "CLIENT"
  | server => "SERVER"
  | producer => "PRODUCER"
  | consumer => "CONSUMER"

def ofName? (s : Text) : Option Kind := all.find? fun k => k.name = s

theorem ofName?_name (k : Kind) : ofName? k.name = some k := by cases k <;> decide

end Kind

/-- Where a span was recorded: which service, at which address. -/
structure Endpoint where
  serviceName : Option Text := none
  ip : Json.Value := .null
  port : Option Int := none
  deriving Repr, Inhabited

structure Annotation where
  timestamp : Int
  value : Text
  deriving DecidableEq, Repr

/-- One timed operation of a trace. A shared span is the server's report of an id that the client
reports too. -/
structure Span where
  traceId : Text
  id : Text
  parentId : Option Text := none
  kind : Kind := .none
  name : Json.Value := .null
  timestamp : Option Int := none
  duration : Option Int := none
  localEndpoint : Option Endpoint := none
  remoteEndpoint : Option Endpoint := none
  annotations : List Annotation := []
  tags : List (Text × Text) := []
  shared : Bool := false
  deriving Repr, Inhabited

namespace Endpoint

/-- The service name, unless it is absent or empty. -/
def service? (e : Endpoint) : Option Text := e.serviceName.filter (!·.isEmpty)

end Endpoint

namespace Span

/-- The declared parent, unless it is absent or empty. -/
def declaredParent? (s : Span) : Option Text := s.parentId.filter (!·.isEmpty)

def isRoot (s : Span) : Bool := s.declaredParent?.isNone

def endpoints (s : Span) : List Endpoint := s.localEndpoint.toList ++ s.remoteEndpoint.toList

/-- The services at the two ends of a span, the local one first and each one once. -/
def serviceNames (s : Span) : List Text := (s.endpoints.filterMap (·.service?)).eraseDups

/-- The timestamp of a span, unless it is absent or zero. -/
def startTime? (s : Span) : Option Int := s.timestamp.filter (· != 0)

def length (s : Span) : Int := s.duration.getD 0

end Span

end TraceExplorer
