import ReaderGen.Proofs.Layout.Exact

/-!
# ReaderGen.Proofs.Layout.DeferredQueue -- the queue of deferred accessors

The builder fills two lists. An accessor whose body follows every class is queued in the
loop over the fields of its class (`addAccessors_eq_ok_iff`), and the class is declared
behind that loop (`Parts.Queued.append_class`). What the queue of given declarations is
follows from the values of the accessors alone (`Queues`): class by class and accessor by
accessor, each accessor that reads an object, with its class.

**The queue of a layout is the queue of its declarations, and no other list is**
(`deferred_queue_exact`). The two lists keep in step along the whole walk: whatever a visit
adds, it adds to both (`inStep_of_visit`).
-/

namespace ReaderGen.Layout

/-! ## Both lists of the builder -/

/-- The queue of what has been built so far is that of its declarations. -/
def Parts.InStep (parts : Parts) : Prop := Queues parts.declarations parts.deferred

theorem Parts.InStep.extend {parts : Parts} (h : parts.InStep) (block : List Declaration) :
    (parts.extend block).InStep :=
  h.append (queues_iff.mpr rfl)

variable {schema : Schema} {table : TypeTable} {encoding : Encoding}

/-- **A visit that succeeds keeps both lists in step.** -/
theorem inStep_of_visit (htable : TypeTable.ofSchema schema = .ok table)
    {definition : Definition} {parts after : Parts} (h : parts.InStep)
    (hvisit : (declarationBuilder encoding).visit table definition parts = (after, .ok ())) :
    after.InStep := by
  obtain ⟨block, -, rfl⟩ := (visit_eq_ok_iff htable).mp hvisit
  exact h.extend block

/-- **A walk that succeeds keeps both lists in step.** -/
theorem inStep_of_walkFrom (htable : TypeTable.ofSchema schema = .ok table)
    {definitions : List Definition} {parts after : Parts} (h : parts.InStep)
    (hwalk : (declarationBuilder encoding).walkFrom table definitions parts = (after, .ok ())) :
    after.InStep := by
  induction definitions generalizing parts with
  | nil =>
    cases hwalk
    exact h
  | cons definition rest ih =>
    rw [Visitor.walkFrom] at hwalk
    rcases hvisit : (declarationBuilder encoding).visit table definition parts with
      ⟨between, _ | _⟩
    · simp [hvisit] at hwalk
    · rw [hvisit] at hwalk
      exact ih (inStep_of_visit htable h hvisit) hwalk

/-! ## The queue of a layout -/

/-- A layout is made of the parts of a walk that starts with nothing. -/
theorem exists_walk_of_build {layout : Layout} (h : build schema encoding = .ok layout) :
    ∃ table, TypeTable.ofSchema schema = .ok table ∧
      (declarationBuilder encoding).walkFrom table schema.types Parts.empty =
        (⟨layout.declarations, layout.deferred⟩, .ok ()) := by
  obtain ⟨declarations, ⟨hdistinct, blocks, hblocks, rfl⟩, rfl⟩ := build_eq_ok_iff.mp h
  have htable := TypeTable.ofSchema_of_nodup hdistinct
  exact ⟨_, htable, (walkFrom_eq_ok_iff htable).mpr ⟨blocks, hblocks, rfl⟩⟩

/-- **The deferred accessors of a layout are exactly the accessors of its classes that read an
object**: in the order of the classes and of the accessors in each, every one once, unchanged,
and with its own class. -/
theorem deferred_queue_exact {layout : Layout} (h : build schema encoding = .ok layout)
    (queue : List Deferred) : Queues layout.declarations queue ↔ queue = layout.deferred := by
  obtain ⟨table, htable, hwalk⟩ := exists_walk_of_build h
  have hnothing : Parts.empty.InStep := .nil
  have hstep : Queues layout.declarations layout.deferred :=
    inStep_of_walkFrom htable hnothing hwalk
  rw [queues_iff, queues_iff.mp hstep]

/-- A product with objects on both sides of a number, a sum of which one constructor has
fields, and a product that refers back. -/
def forest : Schema :=
  ⟨"m", [⟨"tree", .product ⟨[⟨"left", "node", false, true⟩, ⟨"size", "int", false, false⟩,
        ⟨"kids", "node", true, false⟩], []⟩⟩,
    ⟨"node", .sum ⟨[⟨"Nil", []⟩, ⟨"Leaf", [⟨"id", "id", false, false⟩,
        ⟨"parent", "tree", false, false⟩]⟩], []⟩⟩]⟩

theorem deferred_queue_of_forest :
    ∃ layout, build forest .standard = .ok layout ∧
      ∀ queue, Queues layout.declarations queue ↔
        queue = [⟨.product "tree", ⟨"left", 0, .object "node" true, .single⟩⟩,
          ⟨.product "tree", ⟨"kids", 6, .object "node" false, .repeated 3⟩⟩,
          ⟨.variant "node" "Leaf", ⟨"parent", 4, .object "tree" false, .single⟩⟩] := by
  have hbuild : build forest .standard = .ok _ := rfl
  exact ⟨_, hbuild, deferred_queue_exact hbuild⟩

end ReaderGen.Layout
