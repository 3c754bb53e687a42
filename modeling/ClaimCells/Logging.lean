import ClaimCells.Event

/-!
# Which events are written

A filter is a list of directives. A directive names the beginning of a target, or none for every
target, and how much of its events is written. Of the directives that fit an event, the one with
the longest target decides; an event that none fits is not written.
-/

namespace ClaimCells

/-- One rule of a filter. -/
structure Directive where
  target : String := ""
  /-- The least important level that is written. Without one nothing is. -/
  level : Option Level
deriving DecidableEq, Repr

/-- Rules with different targets. -/
structure Filter where
  directives : List Directive
deriving DecidableEq, Repr

/-! ## Deciding -/

/-- Whether a directive is about an event. -/
def Directive.fits (d : Directive) (e : Event) : Bool :=
  d.target.toList.isPrefixOf e.target.toList

def Directive.allows (d : Directive) (e : Event) : Bool :=
  match d.level with
  | some l => e.level.rank ≤ l.rank
  | none => false

namespace Filter

/-- The directive with the longest target. -/
def longest : List Directive → Option Directive
  | [] => none
  | d :: ds => match longest ds with
    | some d' => if d.target.length < d'.target.length then some d' else some d
    | none => some d

/-- Whether an event is written. -/
def allows (f : Filter) (e : Event) : Bool :=
  match longest (f.directives.filter (·.fits e)) with
  | some d => d.allows e
  | none => false

/-- The filter with a directive for a target, in place of any that was there. -/
def add (f : Filter) (d : Directive) : Filter :=
  ⟨d :: f.directives.filter (·.target ≠ d.target)⟩

/-- The filter of several directives. Without any, errors are written. -/
def ofList : List Directive → Filter
  | [] => ⟨[{ level := some .error }]⟩
  | ds => ds.foldl add ⟨[]⟩

end Filter

/-! ## Reading -/

/-- What a word says about the level: its name in any case, or its number. -/
def Level.ofWord? (s : String) : Option (Option Level) :=
  match String.ofList (s.toList.map Char.toLower) with
  | "off" | "0" => some none
  | "error" | "1" => some (some .error)
  | "warn" | "2" => some (some .warn)
  | "info" | "3" => some (some .info)
  | "debug" | "4" => some (some .debug)
  | "trace" | "5" => some (some .trace)
  | _ => none

def isBlank (c : Char) : Bool :=
  c = ' ' || ('\t' ≤ c && c ≤ '\r')

namespace Directive

/-- Whether a character may begin a directive. -/
def mayBegin (c : Char) : Bool :=
  c.isAlphanum || c = '-' || c = ':' || c = '_' || 128 ≤ c.toNat

/-- A target with the word for its level, which may be left out for everything. No blank may
stand around either. -/
def ofPair? (target word : List Char) : Option Directive :=
  let target' := String.ofList target
  if (target.head?.map isBlank).getD false then none
  else if word.isEmpty then some { target := target', level := some .trace }
  else (Level.ofWord? (String.ofList word)).map fun level => { target := target', level }

/-- Reads a level or a target. A word with blanks around it is no level. -/
def ofWord (s : List Char) : Directive :=
  match Level.ofWord? (String.ofList s) with
  | some level => { level }
  | none => { target := String.ofList s, level := some .trace }

/-- Reads a level, a target, or a target with its level. -/
def ofText? (s : List Char) : Option Directive :=
  match s.dropWhile isBlank with
  | [] => none
  | c :: _ =>
    if !mayBegin c then none
    else match s.dropWhile (· ≠ '=') with
      | _ :: word => ofPair? (s.takeWhile (· ≠ '=')) word
      | [] => some (ofWord s)

end Directive

namespace Filter

/-- The directives of a text, which commas part. -/
def parts (s : String) : List (List Char) :=
  (s.toList.splitOn ',').filter (· ≠ [])

/-- Reads a filter of which every directive must be right. -/
def ofText? (s : String) : Option Filter :=
  ((parts s).mapM Directive.ofText?).map ofList

/-- Reads a filter and passes over directives that are wrong. -/
def ofTextLossy (s : String) : Filter :=
  ofList ((parts s).filterMap Directive.ofText?)

/-- The filter that is used when nothing else is said. -/
def standard : String := "varcell=info,varcell_runtime=info,varcell_metrics=info"

/-- The filter that a text asks for, or else the fallback. -/
def choose (text : Option String) (fallback : String) : Filter :=
  (text.bind ofText?).getD (ofTextLossy fallback)

end Filter

end ClaimCells
