import MergeTrial.Log.Directive

/-! Filters of the log. An event is kept if the most specific directive about it lets it pass, or
if it happens in a span that a directive singles out. -/

namespace MergeTrial.Log

namespace Directive

def isDynamic (d : Directive) : Bool := d.span.isSome || !d.fields.isEmpty

def isStatic (d : Directive) : Bool := d.span.isNone && d.fields.all (·.value.isNone)

def isAbout (d : Directive) (target : String) : Bool :=
  d.target.all fun text => text.toList.isPrefixOf target.toList

def coversEvent (d : Directive) (e : Event) : Bool :=
  d.isStatic && d.isAbout e.target && d.fields.all fun field => e.hasField field.name

def coversSpan (d : Directive) (s : Span) : Bool :=
  d.isDynamic && d.isAbout s.target && d.span.all (· == s.name)
    && d.fields.all fun field => (s.fields.lookup field.name).any field.accepts

def rivals (d e : Directive) : Bool :=
  d.target == e.target && d.span == e.span && d.fields == e.fields

/-- How specific a directive is: the length of its target and how many fields it asks for. -/
def isMoreSpecific (d e : Directive) : Bool :=
  let key (d : Directive) : Nat × Nat :=
    ((d.target.map String.utf8ByteSize).getD 0, d.fields.length)
  if (key d).1 ≠ (key e).1 then (key e).1 < (key d).1
  else if (key d).2 ≠ (key e).2 then (key e).2 < (key d).2
  else decide (e.fields.map (·.name) < d.fields.map (·.name))

end Directive

abbrev Filter := List Directive

namespace Filter

def parts (text : String) : List (List Char) :=
  (text.toList.splitBy fun a b => a != ',' && b != ',').filter (· != [','])

def orErrors (directives : Filter) : Filter :=
  if directives.isEmpty then [⟨none, none, [], Level.error.rank⟩] else directives

def ofText? (text : String) : Option Filter := ((parts text).mapM Directive.ofText?).map orErrors

def ofText (text : String) : Filter := orErrors ((parts text).filterMap Directive.ofText?)

def effective : Filter → Filter
  | [] => []
  | d :: rest => if rest.any d.rivals then effective rest else d :: effective rest

def applicable (filter : Filter) (e : Event) : Option Directive :=
  (filter.effective.filter (·.coversEvent e)).foldl
    (fun best d => if best.all d.isMoreSpecific then some d else best) none

def ceiling (filter : Filter) : Threshold :=
  if filter.any fun d => d.fields.any (·.value.isSome) then Level.trace.rank
  else filter.foldl (fun high d => max high d.threshold) 0

def opens (filter : Filter) (e : Event) (s : Span) : Bool :=
  s.level.rank ≤ filter.ceiling
    && filter.effective.any fun d => d.coversSpan s && e.level.rank ≤ d.threshold

def keeps (filter : Filter) (e : Event) : Bool :=
  e.within.any (filter.opens e)
    || match filter.applicable e with
      | some d => e.level.rank ≤ d.threshold
      | none => false

def choose (outside : Option String) (settings : String) : Filter :=
  (outside.bind ofText?).getD (ofText settings)

end Filter

def render (filter : Filter) (events : List Event) : String :=
  String.join ((events.filter filter.keeps).map Event.line)

end MergeTrial.Log
