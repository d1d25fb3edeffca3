import ReaderGen.Proofs.Lists
import ReaderGen.Proofs.TypeTable

/-!
# ReaderGen.Proofs.TypeTable.Walk -- a walk, call by call

A walk is a function of the visitor's state, and which hooks it has called cannot be seen in its
answer. Here the calls are made visible in two ways. `Performs` says what a list of calls does to
a state when each acts on what the call before it has left, and the first that fails ends the
list. `Visitor.recorded` is the same visitor with a log to which each hook adds its own call
before it does anything.

**The calls of a walk are those that the definitions ask for, in the order of the schema and with
the end behind them, up to the first call that fails** (`walk_calls_in_order`). Nothing is asked
of the visitor: its state, its faults and the pattern of its failures are arbitrary.
-/

namespace ReaderGen

/-! ## Calls -/

/-- A call of a hook. The table is left out: every hook is given the table of the walk. -/
inductive HookCall where
  | simpleSum (name : String) (sum : Sum)
  | compoundSum (name : String) (sum : Sum)
  | product (name : String) (product : Product)
  | finish
  deriving DecidableEq, Repr

/-- The call that a definition asks for: a sum without any field is simple, every other sum is
compound. -/
inductive Routed : Definition → HookCall → Prop
  | simpleSum {name : String} {sum : Sum} :
      (∀ variant ∈ sum.variants, variant.fields = []) →
      Routed ⟨name, .sum sum⟩ (.simpleSum name sum)
  | compoundSum {name : String} {sum : Sum} :
      (∃ variant ∈ sum.variants, variant.fields ≠ []) →
      Routed ⟨name, .sum sum⟩ (.compoundSum name sum)
  | product {name : String} {product : Product} :
      Routed ⟨name, .product product⟩ (.product name product)

theorem exists_routed (definition : Definition) : ∃ call, Routed definition call := by
  obtain ⟨name, body⟩ := definition
  cases body with
  | product product => exact ⟨_, .product⟩
  | sum choice =>
    by_cases hsimple : ∀ variant ∈ choice.variants, variant.fields = []
    · exact ⟨_, .simpleSum hsimple⟩
    · simp only [not_forall, exists_prop] at hsimple
      exact ⟨_, .compoundSum hsimple⟩

namespace Visitor

variable {σ ε : Type}

/-- What a call does. -/
def perform (visitor : Visitor σ ε) (table : TypeTable) : HookCall → VisitStep σ ε
  | .simpleSum name sum => visitor.simpleSum table name sum
  | .compoundSum name sum => visitor.compoundSum table name sum
  | .product name product => visitor.product table name product
  | .finish => visitor.finish table

/-- **A definition is visited by the call that it asks for.** -/
theorem visit_of_routed {definition : Definition} {call : HookCall}
    (h : Routed definition call) (visitor : Visitor σ ε) (table : TypeTable) :
    visitor.visit table definition = visitor.perform table call := by
  cases h with
  | @simpleSum name choice hsimple =>
    have hshape : Definition.shape ⟨name, .sum choice⟩ = .simpleSum choice :=
      if_pos (choice.isSimple_iff.mpr hsimple)
    rw [visit, hshape]
    rfl
  | @compoundSum name choice hcompound =>
    obtain ⟨variant, hmem, hfields⟩ := hcompound
    have hshape : Definition.shape ⟨name, .sum choice⟩ = .compoundSum choice :=
      if_neg fun hsimple => hfields (choice.isSimple_iff.mp hsimple variant hmem)
    rw [visit, hshape]
    rfl
  | product => rfl

/-! ## Runs of calls -/

/-- The calls are made one after another, each on the state that the one before it has left. They
end with the first call that fails, whose fault is the outcome. -/
inductive Performs (visitor : Visitor σ ε) (table : TypeTable) :
    σ → List HookCall → σ → Except ε Unit → Prop
  | done {state : σ} : Performs visitor table state [] state (.ok ())
  | next {state between after : σ} {call : HookCall} {calls : List HookCall}
      {outcome : Except ε Unit} :
      visitor.perform table call state = (between, .ok ()) →
      Performs visitor table between calls after outcome →
      Performs visitor table state (call :: calls) after outcome
  | stop {state after : σ} {call : HookCall} {fault : ε} :
      visitor.perform table call state = (after, .error fault) →
      Performs visitor table state [call] after (.error fault)

/-- The calls that were made of those that were due: all of them, or, with a fault, those up to
and with the one that failed. -/
def MadeOf (due made : List HookCall) : Except ε Unit → Prop
  | .ok () => made = due
  | .error _ => ∃ front call back, due = front ++ call :: back ∧ made = front ++ [call]

theorem MadeOf.cons {due made : List HookCall} {outcome : Except ε Unit}
    (h : MadeOf due made outcome) (call : HookCall) :
    MadeOf (call :: due) (call :: made) outcome := by
  match outcome, h with
  | .ok (), h => exact congrArg (call :: ·) h
  | .error _, ⟨front, last, back, hdue, hmade⟩ =>
    exact ⟨call :: front, last, back, by rw [hdue]; rfl, by rw [hmade]; rfl⟩

/-! ## The log -/

/-- The step, with its call added to a log in front of it. -/
def noting (call : HookCall) (step : VisitStep σ ε) : VisitStep (σ × List HookCall) ε :=
  fun (state, log) =>
    let (after, outcome) := step state
    ((after, log ++ [call]), outcome)

/-- The same visitor with a log of the hooks that were called. -/
def recorded (visitor : Visitor σ ε) : Visitor (σ × List HookCall) ε where
  simpleSum table name sum := noting (.simpleSum name sum) (visitor.simpleSum table name sum)
  compoundSum table name sum := noting (.compoundSum name sum) (visitor.compoundSum table name sum)
  product table name product := noting (.product name product) (visitor.product table name product)
  finish table := noting .finish (visitor.finish table)

theorem perform_recorded (visitor : Visitor σ ε) (table : TypeTable) (call : HookCall) :
    visitor.recorded.perform table call = noting call (visitor.perform table call) := by
  cases call <;> rfl

/-! ## Walks -/

/-- **One walk, seen from the calls that are due**: the calls it makes are those up to the first
that fails, the log shows these calls and no others, and their run is the walk. -/
theorem walkFrom_calls (visitor : Visitor σ ε) (table : TypeTable)
    {definitions : List Definition} {visits : List HookCall}
    (hvisits : List.Forall₂ Routed definitions visits) (state : σ) (log : List HookCall) :
    ∃ made after outcome,
      visitor.walkFrom table definitions state = (after, outcome) ∧
      visitor.recorded.walkFrom table definitions (state, log) = ((after, log ++ made), outcome) ∧
      visitor.Performs table state made after outcome ∧
      MadeOf (visits ++ [.finish]) made outcome := by
  induction hvisits generalizing state log with
  | nil =>
    rw [walkFrom, walkFrom]
    -- the only call is the end, and its outcome is that of the walk
    rcases hfinish : visitor.finish table state with ⟨after, fault | ⟨⟩⟩
    · refine ⟨[.finish], after, .error fault, rfl, ?_, .stop hfinish, [], .finish, [], rfl,
        rfl⟩
      simp only [recorded, noting, hfinish]
    · refine ⟨[.finish], after, .ok (), rfl, ?_, .next hfinish .done, rfl⟩
      simp only [recorded, noting, hfinish]
  | @cons definition call definitions visits hrouted hvisits ih =>
    rw [walkFrom, walkFrom, visit_of_routed hrouted, visit_of_routed hrouted, perform_recorded,
      noting]
    rcases hcall : visitor.perform table call state with ⟨between, fault | ⟨⟩⟩
    · exact ⟨[call], between, .error fault, rfl, rfl, .stop hcall, [], call, _, rfl, rfl⟩
    · obtain ⟨made, after, outcome, hwalk, hlog, hperforms, hmade⟩ :=
        ih between (log ++ [call])
      refine ⟨call :: made, after, outcome, hwalk, ?_, .next hcall hperforms, hmade.cons call⟩
      show visitor.recorded.walkFrom table definitions (between, log ++ [call]) = _
      rw [hlog, List.append_assoc]
      rfl

end Visitor

/-- **The table agrees with the schema, and the walk with the table.** A table exists exactly for
pairwise distinct names, and then says of the definitions what the schema says. There is one list
of calls, one for each definition in the order of the schema, such that a walk of any visitor from
any state makes these calls and then finishes, each exactly once; if a call fails, it is the last
one made, and its fault is the fault of the walk. -/
theorem walk_calls_in_order (schema : Schema) :
    ((∃ table, TypeTable.ofSchema schema = .ok table) ↔
      (schema.types.map Definition.name).Nodup) ∧
    ∀ table, TypeTable.ofSchema schema = .ok table →
      table.Agrees schema ∧
      ∃ visits, List.Forall₂ Routed schema.types visits ∧
        ∀ (σ ε : Type) (visitor : Visitor σ ε) (state : σ) (log : List HookCall),
          ∃ made after outcome,
            visitor.walk table state = (after, outcome) ∧
            visitor.recorded.walk table (state, log) = ((after, log ++ made), outcome) ∧
            visitor.Performs table state made after outcome ∧
            Visitor.MadeOf (visits ++ [.finish]) made outcome := by
  constructor
  · constructor
    · rintro ⟨table, htable⟩
      exact (TypeTable.ofSchema_eq_ok_iff.mp htable).1
    · intro hnodup
      exact ⟨_, TypeTable.ofSchema_of_nodup hnodup⟩
  · intro table htable
    have hagrees := TypeTable.agrees_ofSchema htable
    obtain ⟨visits, hvisits⟩ : ∃ visits, List.Forall₂ Routed schema.types visits :=
      exists_forall₂_iff.mpr fun definition _ => exists_routed definition
    refine ⟨hagrees, visits, hvisits, ?_⟩
    intro σ ε visitor state log
    rw [Visitor.walk, Visitor.walk, hagrees.definitions_eq]
    exact visitor.walkFrom_calls table hvisits state log

/-- A product under the name of a builtin, an enumeration, and a sum with fields. -/
def namesakeSchema : Schema :=
  ⟨"m", [⟨"int", .product ⟨[⟨"op", "op", false, false⟩], []⟩⟩,
    ⟨"op", .sum ⟨[⟨"Add", []⟩, ⟨"Sub", []⟩], []⟩⟩,
    ⟨"tree", .sum ⟨[⟨"Nil", []⟩, ⟨"Leaf", [⟨"value", "int", false, false⟩]⟩],
      []⟩⟩]⟩

/-- Counts the definitions that it is shown, and refuses enumerations. -/
def enumerationRefuser : Visitor Nat String where
  simpleSum _ name _ count := (count + 1, .error name)
  compoundSum _ _ _ count := (count + 1, .ok ())
  product _ _ _ count := (count + 1, .ok ())

/-- The sum behind the refused enumeration is not visited, and the walk does not finish. A field
of the type `int` is a builtin, although a definition has that name. -/
theorem walk_calls_of_refused_enumeration :
    ∃ table, TypeTable.ofSchema namesakeSchema = .ok table ∧
      table.resolve "Leaf" ⟨"value", "int", false, false⟩ = .ok (.builtin .int) ∧
      enumerationRefuser.recorded.walk table (0, []) =
        ((2, [.product "int" ⟨[⟨"op", "op", false, false⟩], []⟩,
          .simpleSum "op" ⟨[⟨"Add", []⟩, ⟨"Sub", []⟩], []⟩]), .error "op") ∧
      ∃ visits made, List.Forall₂ Routed namesakeSchema.types visits ∧
        enumerationRefuser.Performs table 0 made 2 (.error "op") ∧
        Visitor.MadeOf (visits ++ [.finish]) made (.error "op" : Except String Unit) := by
  have htable : TypeTable.ofSchema namesakeSchema =
      .ok ⟨namesakeSchema, TypeTable.entriesOf namesakeSchema.types⟩ := rfl
  obtain ⟨hagrees, visits, hvisits, hwalks⟩ := (walk_calls_in_order namesakeSchema).2 _ htable
  obtain ⟨made, after, outcome, hwalk, -, hperforms, hmade⟩ :=
    hwalks Nat String enumerationRefuser 0 []
  obtain ⟨rfl, rfl⟩ : 2 = after ∧ .error "op" = outcome := Prod.mk.inj hwalk
  exact ⟨_, htable, (hagrees.builtin_iff _ _ .int).mpr rfl, rfl, visits, made, hvisits, hperforms,
    hmade⟩

end ReaderGen
