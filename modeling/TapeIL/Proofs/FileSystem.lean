import Mathlib.Tactic.SplitIfs
import TapeIL.FileSystem

/-! File systems that grow. Writing to a path with nothing at it adds a file and keeps all others,
so paths lead to where they led before.
-/

namespace TapeIL.FileSystem

variable {fs before after : FileSystem} {path contents : Bytes} {place other : Place} {node : Node}

------------------------------------------------------------------------------------------
-- one node more
------------------------------------------------------------------------------------------

/-- The root is a directory, so nothing can be put there. -/
theorem ne_root_of_free (free : fs.node? place = none) : place ≠ [] := by
  rintro rfl
  cases free

theorem node?_of_ne_root (h : place ≠ []) : fs.node? place = fs.nodes.lookup place := by
  rw [node?, List.isEmpty_eq_false_iff.mpr h]
  rfl

theorem lookup_filter_ne {nodes : List (Place × Node)} (different : other ≠ place)
    : (nodes.filter fun (found, _) => found != place).lookup other = nodes.lookup other := by
  induction nodes with
  | nil => rfl
  | cons entry rest ih =>
      obtain ⟨found, node⟩ := entry
      by_cases same : found = place
      · subst same
        rw [List.filter_cons_of_neg (by simp), ih, List.lookup_cons,
          beq_eq_false_iff_ne.mpr different]
      · rw [List.filter_cons_of_pos (by simpa using same), List.lookup_cons, List.lookup_cons, ih]

theorem node?_put (h : place ≠ []) : (fs.put place node).node? place = some node := by
  rw [node?_of_ne_root h, put]
  simp

theorem node?_put_of_ne (different : other ≠ place)
    : (fs.put place node).node? other = fs.node? other := by
  by_cases root : other = []
  · subst root
    rfl
  · rw [node?_of_ne_root root, node?_of_ne_root root, put, List.lookup_cons,
      beq_eq_false_iff_ne.mpr different]
    exact lookup_filter_ne different

------------------------------------------------------------------------------------------
-- growth
------------------------------------------------------------------------------------------

/-- Every node stays as it is, and no directory is new. -/
structure Extends (before after : FileSystem) : Prop where
  workingDirectory : after.workingDirectory = before.workingDirectory
  keeps : ∀ {place node}, before.node? place = some node → after.node? place = some node
  directories : ∀ {place}, after.node? place = some .directory
    → before.node? place = some .directory

theorem Extends.refl (fs : FileSystem) : fs.Extends fs :=
  ⟨rfl, id, id⟩

/-- A file at a place that was free at first, whatever may stand there by now. -/
theorem Extends.put (h : before.Extends after) (free : before.node? place = none)
    : before.Extends (after.put place (.file contents)) where
  workingDirectory := h.workingDirectory
  keeps := by
    intro other node found
    have different : other ≠ place := by
      rintro rfl
      simp [free] at found
    rw [node?_put_of_ne different]
    exact h.keeps found
  directories := by
    intro other found
    by_cases same : other = place
    · subst same
      simp [node?_put (ne_root_of_free free)] at found
    · rw [node?_put_of_ne same] at found
      exact h.directories found

/-- Names lead to the same places, because only directories are walked through. -/
theorem Extends.walk_iff (h : before.Extends after) {names : List Bytes} {target : Place}
    : after.walk place names = .ok target ↔ before.walk place names = .ok target := by
  induction names generalizing place with
  | nil => rfl
  | cons name names ih =>
      have same : after.node? place = some .directory ↔ before.node? place = some .directory :=
        ⟨h.directories, h.keeps⟩
      by_cases directory : before.node? place = some .directory
      · simp only [walk, directory, same.mpr directory]
        split_ifs <;> first | exact ih | rfl
      · have none (fs : FileSystem) (no : fs.node? place ≠ some .directory)
            : fs.walk place (name :: names) ≠ .ok target := by
          rw [walk]
          split <;> simp_all
        have left := none after (mt same.mp directory)
        have right := none before directory
        simp [left, right]

theorem Extends.resolve_iff (h : before.Extends after)
    : after.resolve path = .ok place ↔ before.resolve path = .ok place := by
  unfold resolve
  rw [h.workingDirectory]
  split_ifs <;> first | exact h.walk_iff | rfl

/-- What a path named, it still names. -/
theorem Extends.find (h : before.Extends after) (found : before.find path = .ok node)
    : after.find path = .ok node := by
  unfold FileSystem.find at found ⊢
  cases resolved : before.resolve path with
  | error e => simp [resolved, bind, Except.bind] at found
  | ok place =>
      rw [h.resolve_iff.mpr resolved]
      rw [resolved] at found
      cases here : before.node? place with
      | none =>
          simp only [here, bind, Except.bind] at found
          cases found
      | some node =>
          simp only [bind, Except.bind, here, h.keeps here] at found ⊢
          exact found

theorem Extends.read (h : before.Extends after) (found : before.read path = .ok contents)
    : after.read path = .ok contents := by
  unfold FileSystem.read at found ⊢
  cases named : before.find path with
  | error e => simp [named] at found
  | ok node =>
      rw [h.find named]
      rwa [named] at found

------------------------------------------------------------------------------------------
-- free paths
------------------------------------------------------------------------------------------

/-- Nothing stands where the path leads, or it leads nowhere. -/
def Free (fs : FileSystem) (path : Bytes) : Prop :=
  fs.find path = .error .notFound

theorem Free.node? (free : fs.Free path) (resolved : fs.resolve path = .ok place)
    : fs.node? place = none := by
  unfold Free find at free
  rw [resolved] at free
  cases found : fs.node? place with
  | none => rfl
  | some node =>
      cases node with
      | directory =>
          simp only [found, bind, Except.bind] at free
          cases free
      | file contents =>
          simp only [found, bind, Except.bind] at free
          split at free <;> cases free

/-- Writing to a path that was free at first keeps what there was at first. -/
theorem Extends.write (h : before.Extends after) (free : before.Free path) {next : FileSystem}
    (written : after.write path contents = .ok next)
    : before.Extends next := by
  unfold FileSystem.write at written
  cases resolved : after.resolve path with
  | error e => simp [resolved] at written
  | ok place =>
      simp only [resolved] at written
      split at written
      · cases written
      · cases written
        exact h.put (free.node? (h.resolve_iff.mp resolved))

end TapeIL.FileSystem
