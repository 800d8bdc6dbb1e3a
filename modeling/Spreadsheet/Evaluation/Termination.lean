import Spreadsheet.Evaluation.Machine

/-!
# Every evaluation ends

Whatever the environment and the options, the machine stops after finitely many steps. A frame is
left once its own steps or cells are used up, and what it puts on top of itself in the meantime is
either a range, whose cells are finitely many, or the steps of a formula cell, one level deeper; the
level is limited, whether cycles are looked for or not.

## Main results

* `State.wellFounded`: no run of the machine goes on for ever.
-/

namespace Spreadsheet.Evaluation

namespace State

variable {env : Environment} {options : Options}

/-- One state follows another in a run of the machine. -/
def Follows (env : Environment) (options : Options) (after before : State) : Prop :=
  before.next env options = .running after

/-- Every run from a state with these frames and this depth ends, whatever the values and memories
of the state are. -/
def Ends (env : Environment) (options : Options) (frames : List Frame) (depth : Nat) : Prop :=
  ∀ values resolved resolving,
    Acc (Follows env options) ⟨frames, values, resolved, resolving, depth⟩

/-- The depth after a frame is left. -/
def depthBehind (depth : Nat) : Frame → Nat
  | .steps _ (some _) => depth - 1
  | _ => depth

theorem follows_iff {s t : State} :
    Follows env options t s ↔
      ∃ frame rest, s.frames = frame :: rest ∧ s.proceed env options rest frame = .ok t := by
  unfold Follows next
  split
  · next h => simp [h]
  · next frame rest h =>
    constructor
    · intro ht
      split at ht
      · cases ht
      · next hp => cases ht; exact ⟨frame, rest, h, hp⟩
    · rintro ⟨f, r, he, hp⟩
      rw [h] at he
      cases he
      simp [hp]

/-- Replacing values on the stack keeps frames and depth. -/
theorem replaceTop_eq {s t : State} {n : Nat} {f : List Value → Outcome}
    (h : s.replaceTop n f = .ok t) : ∃ values, t = { s with values } := by
  unfold replaceTop at h
  split at h
  · cases h
  · split at h
    · cases h
    · cases h; exact ⟨_, rfl⟩

/-- Loading a cell puts a value on the stack, or begins to resolve a formula cell within the
limit. -/
theorem load_eq {s t : State} {name : String} (h : s.load env options name = .ok t) :
    (∃ v, t = s.push v) ∨
      s.depth < options.maxReferences ∧ ∃ steps, t = s.enter options name steps := by
  unfold load at h
  split at h
  · cases h; exact .inl ⟨_, rfl⟩
  · split at h
    · cases h
    · split at h
      · cases h; exact .inl ⟨_, rfl⟩
      · cases h; exact .inl ⟨_, rfl⟩
      · split at h
        · next hd =>
          simp only [bind, Except.bind, pure, Except.pure] at h
          split at h
          · cases h
          · split at h
            · cases h
            · cases h; exact .inr ⟨hd, _, rfl⟩
        · cases h

theorem enterRange_eq {s t : State} {start stop : String}
    (h : s.enterRange options start stop = .ok t) :
    ∃ r : Range, t = { s with frames := .range r.cursor 0 :: s.frames } := by
  unfold enterRange at h
  split at h
  · cases h
  · split at h
    · cases h
    · cases h; exact ⟨_, rfl⟩

/-- What is assumed of the next level while runs on one level are looked at: whatever is put on top
there has runs that end, if the runs behind it end. -/
def DeeperEnds (env : Environment) (options : Options) (depth : Nat) : Prop :=
  depth < options.maxReferences → ∀ frame rest, depthBehind (depth + 1) frame = depth →
    Ends env options rest depth → Ends env options (frame :: rest) (depth + 1)

/-- After a cell is loaded, runs end if those end that only had a value put on the stack. -/
theorem acc_of_load {s t : State} {name : String} (deeper : DeeperEnds env options s.depth)
    (here : Ends env options s.frames s.depth) (h : s.load env options name = .ok t) :
    Acc (Follows env options) t := by
  rcases load_eq h with ⟨v, rfl⟩ | ⟨hd, steps, rfl⟩
  · exact here _ _ _
  · exact deeper hd (.steps steps (some name)) s.frames rfl here _ _ _

/-- Loading the cells of a range ends. -/
theorem ends_range {depth : Nat} {rest : List Frame} (deeper : DeeperEnds env options depth)
    (behind : Ends env options rest depth) (cursor : Range.Cursor) (loaded : Nat) :
    Ends env options (.range cursor loaded :: rest) depth := by
  induction hn : cursor.remaining generalizing cursor loaded with
  | zero =>
    intro values resolved resolving
    refine Acc.intro _ fun t ht => ?_
    obtain ⟨frame, rest, hf, hp⟩ := follows_iff.1 ht
    cases hf
    simp only [proceed, hn, if_true] at hp
    obtain ⟨values, rfl⟩ := replaceTop_eq hp
    exact behind _ _ _
  | succ n ih =>
    intro values resolved resolving
    refine Acc.intro _ fun t ht => ?_
    obtain ⟨frame, rest, hf, hp⟩ := follows_iff.1 ht
    cases hf
    simp only [proceed, hn, Nat.add_one_ne_zero, if_false] at hp
    refine acc_of_load (by exact deeper) ?_ hp
    exact ih cursor.advance (loaded + 1) (by simp [Range.Cursor.advance, hn])

/-- Making the steps of a frame ends. -/
theorem ends_steps {depth : Nat} {cell : Option String} {rest : List Frame}
    (deeper : DeeperEnds env options depth) (todo : List Step)
    (behind : Ends env options rest (depthBehind depth (.steps todo cell))) :
    Ends env options (.steps todo cell :: rest) depth := by
  induction todo with
  | nil =>
    intro values resolved resolving
    refine Acc.intro _ fun t ht => ?_
    obtain ⟨frame, rest, hf, hp⟩ := follows_iff.1 ht
    cases hf
    cases hp
    cases cell with
    | none => exact behind _ _ _
    | some name => exact behind _ _ _
  | cons step todo ih =>
    have here := ih (by cases cell <;> exact behind)
    intro values resolved resolving
    refine Acc.intro _ fun t ht => ?_
    obtain ⟨frame, rest, hf, hp⟩ := follows_iff.1 ht
    cases hf
    simp only [proceed] at hp
    cases step with
    | push v => cases hp; exact here _ _ _
    | load name => exact acc_of_load (by exact deeper) (by exact here) hp
    | range start stop =>
      obtain ⟨r, rfl⟩ := enterRange_eq hp
      exact ends_range deeper here _ _ _ _ _
    | apply operation count =>
      obtain ⟨values, rfl⟩ := replaceTop_eq hp
      exact here _ _ _

theorem ends_cons_of_deeper {depth : Nat} {rest : List Frame}
    (deeper : DeeperEnds env options depth) (frame : Frame)
    (behind : Ends env options rest (depthBehind depth frame)) :
    Ends env options (frame :: rest) depth := by
  cases frame with
  | steps todo cell => exact ends_steps deeper todo behind
  | range cursor loaded => exact ends_range deeper behind cursor loaded

/-- On every level, runs that go on from deeper frames end; by induction on the levels that are left
below the limit. -/
theorem deeperEnds (depth : Nat) : DeeperEnds env options depth := by
  induction hn : options.maxReferences - depth generalizing depth with
  | zero => intro hd; omega
  | succ n ih =>
    intro hd frame rest hframe behind
    exact ends_cons_of_deeper (ih (depth + 1) (by omega)) frame (by rw [hframe]; exact behind)

theorem ends (frames : List Frame) (depth : Nat) : Ends env options frames depth := by
  induction frames generalizing depth with
  | nil =>
    intro values resolved resolving
    refine Acc.intro _ fun t ht => ?_
    obtain ⟨frame, rest, hf, _⟩ := follows_iff.1 ht
    cases hf
  | cons frame rest ih => exact ends_cons_of_deeper (deeperEnds depth) frame (ih _)

/-- No run of the machine goes on for ever. -/
theorem wellFounded (env : Environment) (options : Options) :
    WellFounded (Follows env options) :=
  ⟨fun s => ends s.frames s.depth s.values s.resolved s.resolving⟩

end State

end Spreadsheet.Evaluation
