/-
Log filters: a set of rules, of which the most specific one that fits an entry decides whether it is written.

A rule fits by target (the start of the entry's target) and by field names (all of them occur in the entry). One
with a longer target is more specific, then one with more field names. Directives that name a span, or the value
of a field, speak about spans; there are none here, so they let nothing through and keep nothing out.
-/
import Redeploy.Config.Basic

namespace Redeploy.Logging

structure Rule where
  target : Option String
  fields : List String
  level : LevelFilter
deriving DecidableEq, Repr

namespace Rule

/-- the rule that a directive gives for entries -/
def ofDirective? (d : Directive) : Option Rule :=
  if d.span.isSome || d.fields.any (·.value.isSome) then none
  else some ⟨d.target, d.fields.map FieldMatch.name, d.level⟩

/-- the rules are about the same entries -/
def sameScope (a b : Rule) : Bool := a.target == b.target && a.fields == b.fields

/-- length of the target, zero for none -/
def targetSize (r : Rule) : Nat := r.target.elim 0 fun t => t.utf8ByteSize + 1

/-- `a` is looked at before `b`: it is more specific, or as specific and later in the order of texts -/
def precedes (a b : Rule) : Bool :=
  if a.targetSize ≠ b.targetSize then b.targetSize < a.targetSize
  else if a.fields.length ≠ b.fields.length then b.fields.length < a.fields.length
  else if a.target ≠ b.target then decide (b.target.getD "" < a.target.getD "")
  else decide (b.fields < a.fields)

def fits (r : Rule) (e : Entry) : Bool :=
  r.target.all (fun t => t.toList.isPrefixOf e.target.toList) &&
    r.fields.all fun f => f == "message" || e.fields.any (·.1 == f)

end Rule

/-- rules in the order in which they are looked at -/
abbrev Filter := List Rule

namespace Filter

/-- a further rule; it replaces one with the same scope -/
def add (r : Rule) : Filter → Filter
  | [] => [r]
  | q :: qs => if q.sameScope r then r :: qs else if r.precedes q then r :: q :: qs else q :: add r qs

def addDirective (f : Filter) (d : Directive) : Filter :=
  match Rule.ofDirective? d with
  | some r => f.add r
  | none => f

/-- whether the entry is written -/
def admits (f : Filter) (e : Entry) : Bool :=
  match f.find? (·.fits e) with
  | some r => r.level.any fun l => l.admits e.level
  | none => false

/-- the directives in a list with commas between them, if all of them are well formed -/
def directives (text : String) : Directive.Reading (List Directive) :=
  ((text.splitOn ",").filter fun d => !d.isEmpty).mapM Directive.parse

/-- the filter of a configuration: its level, and its directives in order -/
def ofConfig (c : LoggingConfig) : ExceptT String (Except Text.Split) Filter := do
  let level ← ExceptT.mk (pure (LoggingConfig.parseLevel c.level))
  c.directives.foldlM (fun f d => do return f.addDirective (← LoggingConfig.parseDirective d))
    [⟨none, [], some level⟩]

/-- the variable that overrides the configured filter -/
def override : String := "RUST_LOG"

/-- the filter that is used: that of the variable if it is set and well formed, or else that of the configuration -/
def choose (environment : List (String × String)) (c : LoggingConfig) :
    ExceptT String (Except Text.Split) Filter := do
  match environment.lookup override with
  | none => ofConfig c
  | some text =>
    match ← (directives text).run with
    | .ok ds => pure (ds.foldl addDirective [])
    | .error _ => ofConfig c

end Filter

end Redeploy.Logging
