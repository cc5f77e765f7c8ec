import TraceExplorer.Span.Basic

/-!
# Spans that share an id

A client and a server may report one id, and reports may be repeated. All spans of an id form one
group. The first span that is not shared is the primary one, or the first of all; the others are
its legs, in the order in which they came.
-/

namespace TraceExplorer

/-- The spans of one id. -/
structure SpanGroup where
  primary : Span
  legs : List Span := []
  deriving Repr, Inhabited

namespace SpanGroup

def id (g : SpanGroup) : Text := g.primary.id

def spans (g : SpanGroup) : List Span := g.primary :: g.legs

/-- The earliest timestamp in a group. -/
def timestamp (g : SpanGroup) : Option Int := (g.spans.filterMap (·.timestamp)).min?

/-- Adds a span of the same id. The first span that is not shared takes the place of a shared
primary one, which becomes the first leg. -/
def add (g : SpanGroup) (s : Span) : SpanGroup :=
  if g.primary.shared && !s.shared then { primary := s, legs := g.primary :: g.legs }
  else { g with legs := g.legs ++ [s] }

/-- Adds a span to the group of its id; a new id gets a new group at the end. -/
def insert : List SpanGroup → Span → List SpanGroup
  | [], s => [{ primary := s }]
  | g :: rest, s => if g.id = s.id then g.add s :: rest else g :: insert rest s

def index (spans : List Span) : List SpanGroup := spans.foldl insert []

end SpanGroup

end TraceExplorer
