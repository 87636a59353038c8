import LineageLoad.Log.Directive

/-!
Which log lines are written: a level for all of them, and directives that give levels to the parts
of the program.
-/

namespace LineageLoad

/-- A limit for all lines, and the directives, each scope once. -/
structure LogFilter where
  limit : LogLevel
  directives : List LogDirective
  deriving DecidableEq, Repr, Inhabited

namespace LogFilter

/-- The directives of a list, the last one of each scope; without any, errors are logged. -/
def directivesOf (text : String) : List LogDirective :=
  let found := (text.splitToList (· = ',')).filterMap fun part =>
    if part.isEmpty then none else LogDirective.parse? part
  let kept := found.foldl (fun kept directive =>
    kept.filter (!directive.sameScope ·) ++ [directive]) []
  if kept.isEmpty then [{ level := .error }] else kept

/-- The directives of the program: it logs everything of its own and little of its libraries. -/
def ownDirectives : List LogDirective :=
  directivesOf "INFO,mlmd_bench=TRACE,mlmd_store=TRACE,"

/-- The filter that an environment variable gives: a level limits the program's own directives, and
anything else replaces them. Without the variable the configured level is the limit.
-/
def ofVariable (configured : LogLevel) (setting : Option String) : LogFilter :=
  match setting with
  | none => ⟨configured, ownDirectives⟩
  | some text =>
    match LogLevel.parse? text with
    | some level => ⟨level, ownDirectives⟩
    | none => ⟨.trace, directivesOf text⟩

/-- The texts of the directives: of the static ones, and then of those that look at spans. One that
has a field without a value is both.
-/
def texts (filter : LogFilter) : List String :=
  ((filter.directives.filter (·.isStatic)) ++ filter.directives.filter (·.isDynamic)).map (·.text)

/-- The level that the directives give to lines of a part of the program that have some fields: the
one of the most specific static directive that holds for them. There are no spans around lines.
-/
def levelOf (filter : LogFilter) (part : String) (fields : List String) : LogLevel :=
  let holding := filter.directives.filter fun directive =>
    directive.isStatic && directive.target.all (part.startsWith ·)
      && directive.field.all (fields.contains ·.name)
  let best := holding.foldl (fun best directive =>
    match best with
    | none => some directive
    | some found =>
      if found.specificity directive = .gt then some found else some directive) none
  best.elim .off (·.level)

/-- Whether a line of a part of the program with some fields is written. -/
def admits (filter : LogFilter) (part : String) (fields : List String) (level : LogLevel) : Bool :=
  filter.limit.admits level && (filter.levelOf part fields).admits level

end LogFilter

end LineageLoad
