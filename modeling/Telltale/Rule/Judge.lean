import Telltale.Rule
import Telltale.Snapshot
import Telltale.Verdict

/-!
# Judging rules

A rule is judged on a frame, the documents beside it and the snapshot derived from them. A leaf
whose operand is not there stays undecided, and a signal that fell back to its default is not there.
A frame that the filter turns away makes the rule fail.

* `Test.judge`, `Leaf.judge`, `Condition.judge` and `Rule.judge` are the verdicts, from the inside
  out.
-/

namespace Telltale

/-- What a rule is judged by. -/
structure Evidence where
  frame : Frame
  externals : Externals
  snapshot : Snapshot

/-- The value of an operand. -/
def Evidence.value? (e : Evidence) : Operand → Option Json
  | .signal id => e.snapshot.derived? id
  | .field path => lookup e.frame e.externals path
  | .flags _ path => lookup e.frame e.externals path

/-- Whether a word has every bit of one list, some bit of another one, unless that is empty, and no
bit of a third. -/
def hasBits (word : BitVec 64) (allOf anyOf noneOf : List Nat) : Bool :=
  let isSet (i : Nat) : Bool := bit word i == 1
  allOf.all isSet && (anyOf.isEmpty || anyOf.any isSet) && !noneOf.any isSet

/-- The verdict of a test on the value of its operand. -/
def Test.judge (t : Test) (v : Json) : Verdict :=
  match t with
  | .compare comparison value => Verdict.ofBool? (comparison.apply v value)
  | .oneOf values => Verdict.ofBool (v.memberOf values)
  | .bits allOf anyOf noneOf =>
    Verdict.ofBool? (v.flagWord?.map fun word => hasBits word allOf anyOf noneOf)

/-- The verdict of a leaf. -/
def Leaf.judge (l : Leaf) (e : Evidence) : Verdict :=
  match e.value? l.operand with
  | some v => l.test.judge v
  | none => .undecided

namespace Condition

mutual

/-- The verdict of a condition. -/
def judge (e : Evidence) : Condition → Verdict
  | .all members => Verdict.all (judgeEach e members)
  | .any members => Verdict.any (judgeEach e members)
  | .leaf l => l.judge e

/-- The verdicts of conditions in a row. -/
def judgeEach (e : Evidence) : List Condition → List Verdict
  | [] => []
  | c :: rest => judge e c :: judgeEach e rest

end

theorem judgeEach_eq_map (e : Evidence) (cs : List Condition) :
    judgeEach e cs = cs.map (judge e) := by
  induction cs with
  | nil => rfl
  | cons c rest ih => rw [judgeEach, ih, List.map_cons]

end Condition

namespace Rule

/-- The verdict of the condition of a rule. -/
def judgeCondition (r : Rule) (e : Evidence) : Verdict :=
  match r.all, r.any with
  | some all, some any =>
    (Verdict.all (Condition.judgeEach e all)).both (Verdict.any (Condition.judgeEach e any))
  | some all, none => Verdict.all (Condition.judgeEach e all)
  | none, some any => Verdict.any (Condition.judgeEach e any)
  | none, none => .undecided

/-- The verdict of a rule. -/
def judge (r : Rule) (e : Evidence) : Verdict :=
  if r.filter.accepts e.frame.source e.frame.eventName? then r.judgeCondition e else .fails

end Rule

end Telltale
