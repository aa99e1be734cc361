import CallProfiler.Analysis
import CallProfiler.Decimal.Fixed
import CallProfiler.Text.Column

/-!
# Text reports

A report is a table of rows in up to four sections. Every row is measured against the frame
thread: its elapsed and exclusive time as shares of the frame time, the frame rate that its
elapsed time alone would allow, and its calls per frame.
-/

namespace CallProfiler.Report

open CallProfiler.Text

/-- A section that a report may have. -/
inductive Section where
  | threadRoots
  | detailed
  | noRecursion
  | functions
deriving DecidableEq, Repr

namespace Section

/-- All sections, in the order in which a report has them. -/
def all : List Section := [.threadRoots, .detailed, .noRecursion, .functions]

/-- The bit of a section in a section mask. -/
def bit : Section → UInt32
  | .threadRoots => 1
  | .detailed => 2
  | .noRecursion => 4
  | .functions => 8

/-- The mask of all sections. -/
def allBits : UInt32 := 15

/-- The sections of a mask; other bits choose nothing. -/
def ofMask (mask : UInt32) : List Section := all.filter fun choice => mask &&& choice.bit != 0

def title : Section → String
  | .threadRoots => "Threads summary"
  | .detailed => "Detailed report"
  | .noRecursion => "Summary report (no recursion)"
  | .functions => "Functions"

/-- The heading of the first column. -/
def firstColumn : Section → String
  | .functions => "idx"
  | _ => "st"

end Section

/-- The frame totals that rows are measured against. -/
structure Anchor where
  realtime : Nat
  count : Nat
deriving DecidableEq, Repr

/-- The anchor of a run; zero without a frame thread. -/
def Anchor.ofRun (run : RunProfile) : Anchor :=
  match run.frameThread? with
  | some thread => ⟨thread.frameTime, thread.frameCount⟩
  | none => ⟨0, 0⟩

/-- A row before its numbers are put into words. -/
structure Row where
  /-- Stack level or rank. -/
  first : Int
  name : List Char
  realtime : Nat
  childrenRealtime : Nat
  count : Nat
deriving DecidableEq, Repr

namespace Row

/-- Spaces before the name of a level: two for each level, but no more than 128. -/
def indent (level : Int) : Nat := min (2 * level.toNat) 128

/-- A name as shown: indented, and followed by the number of folded recursions. -/
def displayName (name : String) (level : Int) (recursions : Nat) : List Char :=
  let folded := if recursions > 0 then ['[', '+'] ++ decimal recursions ++ [']'] else []
  List.replicate (indent level) ' ' ++ name.toList ++ folded

/-- The row of a node under a name. -/
def ofNode (name : String) (node : Node) (children : Forest Node) : Except Fault Row := do
  let childrenRealtime ← children.realtime
  return {
    first := node.level
    name := displayName name node.level node.recursions
    realtime := node.realtime
    childrenRealtime
    count := node.count }

/-- The row of a function at a rank. -/
def ofStat (rank : Nat) (stat : FunctionStat) : Row where
  first := rank
  name := displayName stat.name 0 stat.recursions
  realtime := stat.realtime
  childrenRealtime := stat.childrenRealtime
  count := stat.count

/-- A number of the report as a double. -/
def double (value : Nat) : Float := value.toUInt64.toFloat

/-- The columns of shares and frame rate. -/
def timeColumns (anchor : Anchor) (row : Row) : List (List Char) :=
  if anchor.realtime = 0 then
    [flushRight 6 ['-'], flushRight 6 ['-'], flushRight 10 ['-']]
  else
    let total := double anchor.realtime
    let inclusive := 100.0 * double row.realtime / total
    let exclusive := inclusive - 100.0 * double row.childrenRealtime / total
    let rate :=
      if row.realtime = 0 then 0.0 else 1e9 * double anchor.count / double row.realtime
    [flushRight 6 (Decimal.fixed 2 inclusive), flushRight 6 (Decimal.fixed 2 exclusive),
      flushRight 10 (Decimal.fixed 1 rate)]

/-- The column of calls per frame. -/
def callColumn (anchor : Anchor) (row : Row) : List Char :=
  if anchor.count = 0 then flushRight 9 ['-']
  else flushRight 9 (Decimal.fixed 2 (double row.count / double anchor.count))

/-- The line of a row, its name column being `width` wide. -/
def line (anchor : Anchor) (width : Nat) (row : Row) : List Char :=
  [' '].intercalate
    ([flushRight 3 (signedDecimal row.first), flushLeft width row.name] ++
      row.timeColumns anchor ++ [row.callColumn anchor])

end Row

/-- The name that a thread's root has in reports. -/
def threadLabel (id : UInt32) : String := s!"<thread {id}>"

/-- The rows of a tree, its root under a label of its own. -/
def treeRows (label : String) (tree : CallTree) : Except Fault (List Row) := do
  let root ← Row.ofNode label tree.root tree.children
  let nodes ← tree.children.entries.mapM fun (node, children) =>
    Row.ofNode node.name node children
  return root :: nodes

/-- The rows of ranked statistics. -/
def statRows (stats : List FunctionStat) : List Row :=
  stats.zipIdx.map fun (stat, index) => Row.ofStat (index + 1) stat

namespace Section

/-- The rows that a section has for a thread. -/
def rows (choice : Section) (thread : ThreadProfile) : Except Fault (List Row) :=
  let label := threadLabel thread.id
  match choice with
  | .threadRoots => return (← treeRows label thread.full).take 1
  | .detailed => treeRows label thread.full
  | .noRecursion => treeRows label thread.collapsed
  | .functions => .ok (statRows thread.stats)

end Section

/-- The width of the name column: the most bytes that a name takes, and room for the heading. -/
def nameWidth (rows : List Row) : Nat :=
  (rows.map fun row => (String.ofList row.name).utf8ByteSize).foldl max 4

/-- The lines of a section with rows for each of its threads. -/
def sectionLines (choice : Section) (anchor : Anchor) (groups : List (List Row)) :
    Except Fault (List (List Char)) := do
  let width ← columnWidth (nameWidth groups.flatten)
  let rule := List.replicate (width + 39) '-'
  let heading := [' '].intercalate
    [flushRight 3 choice.firstColumn.toList, flushLeft width "name".toList,
      flushRight 6 "inc%".toList, flushRight 6 "exc%".toList, flushRight 10 "fps".toList,
      flushRight 9 "call/fr".toList]
  return [rule, s!"{choice.title} [ {groups.length} thread(s) ]".toList, rule, heading] ++
    groups.flatten.map (Row.line anchor width) ++ [[]]

/-- The lines of a report with the sections of a mask. -/
def reportLines (run : RunProfile) (mask : UInt32) : Except Fault (List (List Char)) := do
  let sections ← (Section.ofMask mask).mapM fun choice => do
    let groups ← run.threads.mapM choice.rows
    sectionLines choice (.ofRun run) groups
  return sections.flatten

/-- The text of a report with the sections of a mask. -/
def render (run : RunProfile) (mask : UInt32) : Except Fault String := do
  let lines ← reportLines run mask
  return String.ofList (lines.flatMap fun line => line ++ ['\n'])

end CallProfiler.Report
