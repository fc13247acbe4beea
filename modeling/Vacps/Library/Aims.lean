import Vacps.Library.Async

/- What a thread may still do on the strength of what it has observed. A program aims at a target when
   some answers to its calls lead it to an effect on the target before its next observation. -/
set_option autoImplicit false

namespace Library

section aims

variable {Op : Type} {Res : Op → Type} {ε α β Target : Type} (effect : Op → Target → Prop) (observes : Op → Prop)

def Async.Aims : Async Op Res ε α → Target → Prop
  | .ret _, _ => False
  | .fail _, _ => False
  | .call op rest, target => effect op target ∨ (¬ observes op ∧ ∃ result, Async.Aims (rest result) target)

theorem aims_bind (program : Async Op Res ε α) (continue_ : α → Async Op Res ε β) (target : Target)
    (aims : (program >>= continue_).Aims effect observes target) :
    program.Aims effect observes target ∨ ∃ value, (continue_ value).Aims effect observes target := by
  induction program with
  | ret value => exact Or.inr ⟨value, aims⟩
  | fail error => exact False.elim aims
  | call op rest ih =>
      rcases aims with here | ⟨blind, result, later⟩
      · exact Or.inl (Or.inl here)
      · rcases ih result later with inside | outside
        · exact Or.inl (Or.inr ⟨blind, result, inside⟩)
        · exact Or.inr outside

theorem aims_attempt (program : Async Op Res ε α) (target : Target) (aims : program.attempt.Aims effect observes target) :
    program.Aims effect observes target := by
  induction program with
  | ret value => exact False.elim aims
  | fail error => exact False.elim aims
  | call op rest ih =>
      rcases aims with here | ⟨blind, result, later⟩
      · exact Or.inl here
      · exact Or.inr ⟨blind, result, ih result later⟩

-- An aim is the effect of some operation the program may use.
theorem aims_used (allowed : Op → Prop) (program : Async Op Res ε α) (uses : program.Uses allowed) (target : Target)
    (aims : program.Aims effect observes target) : ∃ op, allowed op ∧ effect op target := by
  induction program with
  | ret value => exact False.elim aims
  | fail error => exact False.elim aims
  | call op rest ih =>
      rcases aims with here | ⟨_, result, later⟩
      · exact ⟨op, uses.1, here⟩
      · exact ih result (uses.2 result) later

-- What observes first aims at nothing yet.
theorem observing_aims (op : Op) (continue_ : Res op → Async Op Res ε β) (seen : observes op)
    (harmless : ∀ target, ¬ effect op target) (target : Target) :
    ¬ (Async.perform op >>= continue_).Aims effect observes target := by
  intro aims
  rcases aims with here | ⟨blind, _⟩
  · exact harmless target here
  · exact blind seen

-- A program without effects aims at nothing.
theorem harmless_aims (program : Async Op Res ε α) (harmless : program.Uses fun op => ∀ target, ¬ effect op target)
    (target : Target) : ¬ program.Aims effect observes target := by
  induction program with
  | ret value => exact fun aims => aims
  | fail error => exact fun aims => aims
  | call op rest ih =>
      intro aims
      rcases aims with here | ⟨_, result, later⟩
      · exact harmless.1 target here
      · exact ih result (harmless.2 result) later

end aims

section grounded

variable {Op : Type} {Res : Op → Type} {ε α β Target State : Type} (effect : Op → Target → Prop) (observes : Op → Prop)
  (exec : (op : Op) → State → Except ε (Res op) × State) (granted : Op → State → Target → Prop)

-- Whatever the program aims at after an observation, the observation grants.
def Async.Grounded : Async Op Res ε α → Prop
  | .ret _ => True
  | .fail _ => True
  | .call op rest =>
      ∀ state, (observes op → ∀ target, (rest (exec op state).1).Aims effect observes target → granted op state target) ∧
        Async.Grounded (rest (exec op state).1)

theorem harmless_grounded (program : Async Op Res ε α) (harmless : program.Uses fun op => ∀ target, ¬ effect op target) :
    program.Grounded effect observes exec granted := by
  induction program with
  | ret value => exact trivial
  | fail error => exact trivial
  | call op rest ih =>
      intro state
      refine ⟨?_, ih _ (harmless.2 _)⟩
      intro _ target aims
      exact absurd aims (harmless_aims effect observes _ (harmless.2 _) target)

-- The program's own aims are granted; what comes after aims at nothing before it observes.
theorem grounded_bind (program : Async Op Res ε α) (continue_ : α → Async Op Res ε β)
    (first : program.Grounded effect observes exec granted)
    (later : ∀ value, (continue_ value).Grounded effect observes exec granted)
    (idle : ∀ value target, ¬ (continue_ value).Aims effect observes target) :
    (program >>= continue_).Grounded effect observes exec granted := by
  induction program with
  | ret value => exact later value
  | fail error => exact trivial
  | call op rest ih =>
      intro state
      obtain ⟨grants, inside⟩ := first state
      refine ⟨?_, ih _ inside⟩
      intro observed target aims
      rcases aims_bind effect observes _ _ target aims with own | ⟨value, outside⟩
      · exact grants observed target own
      · exact absurd outside (idle value target)

-- One call first: what comes after it may aim at what the call grants.
theorem grounded_call (op : Op) (continue_ : Res op → Async Op Res ε β)
    (step : ∀ state value, (exec op state).1 = .ok value →
      (observes op → ∀ target, (continue_ value).Aims effect observes target → granted op state target) ∧
        (continue_ value).Grounded effect observes exec granted) :
    (Async.perform op >>= continue_).Grounded effect observes exec granted := by
  intro state
  cases result : (exec op state).1 with
  | ok value => exact step state value result
  | error error => exact ⟨fun _ _ aims => False.elim aims, trivial⟩

theorem grounded_attempt (program : Async Op Res ε α) (grounded : program.Grounded effect observes exec granted) :
    program.attempt.Grounded effect observes exec granted := by
  induction program with
  | ret value => exact trivial
  | fail error => exact trivial
  | call op rest ih =>
      intro state
      obtain ⟨grants, inside⟩ := grounded state
      refine ⟨?_, ih _ inside⟩
      intro observed target aims
      exact grants observed target (aims_attempt effect observes _ target aims)

-- A program that observes nothing may be followed by anything grounded.
theorem grounded_blind (program : Async Op Res ε α) (continue_ : α → Async Op Res ε β)
    (blind : program.Uses fun op => ¬ observes op) (later : ∀ value, (continue_ value).Grounded effect observes exec granted) :
    (program >>= continue_).Grounded effect observes exec granted := by
  induction program with
  | ret value => exact later value
  | fail error => exact trivial
  | call op rest ih =>
      intro state
      exact ⟨fun observed => absurd observed blind.1, ih _ (blind.2 _)⟩

-- A first call whose failure is caught.
theorem grounded_tried (op : Op) (within : Res op → Async Op Res ε α) (continue_ : Except ε α → Async Op Res ε β)
    (success : ∀ state value, (exec op state).1 = .ok value →
      (observes op → ∀ target, ((within value).attempt >>= continue_).Aims effect observes target → granted op state target) ∧
        ((within value).attempt >>= continue_).Grounded effect observes exec granted)
    (failure : ∀ error, (∀ target, ¬ (continue_ (.error error)).Aims effect observes target) ∧
      (continue_ (.error error)).Grounded effect observes exec granted) :
    ((Async.perform op >>= within).attempt >>= continue_).Grounded effect observes exec granted := by
  intro state
  cases result : (exec op state).1 with
  | ok value => exact success state value result
  | error error => exact ⟨fun _ target aims => absurd aims ((failure error).1 target), (failure error).2⟩

end grounded

section careful

variable {Op : Type} {Res : Op → Type} {ε α β Target State : Type} {effect : Op → Target → Prop} {observes : Op → Prop}
  {exec : (op : Op) → State → Except ε (Res op) × State} {granted : Op → State → Target → Prop} {allowed : Op → Prop}

-- A program a thread may start with: it aims at nothing before it has observed.
structure Careful (effect : Op → Target → Prop) (observes : Op → Prop)
    (exec : (op : Op) → State → Except ε (Res op) × State) (granted : Op → State → Target → Prop) (allowed : Op → Prop)
    (program : Async Op Res ε α) : Prop where
  uses : program.Uses allowed
  sound : program.Grounded effect observes exec granted
  idle : ∀ target, ¬ program.Aims effect observes target

theorem harmless_careful (program : Async Op Res ε α) (uses : program.Uses fun op => allowed op ∧ ∀ target, ¬ effect op target) :
    Careful effect observes exec granted allowed program where
  uses := uses_mono _ _ (fun _ here => here.1) program uses
  sound := harmless_grounded effect observes exec granted program (uses_mono _ _ (fun _ here => here.2) program uses)
  idle := harmless_aims effect observes program (uses_mono _ _ (fun _ here => here.2) program uses)

theorem careful_bind (program : Async Op Res ε α) (continue_ : α → Async Op Res ε β)
    (first : Careful effect observes exec granted allowed program)
    (later : ∀ value, Careful effect observes exec granted allowed (continue_ value)) :
    Careful effect observes exec granted allowed (program >>= continue_) where
  uses := uses_bind _ _ _ first.uses fun value => (later value).uses
  sound := grounded_bind effect observes exec granted _ _ first.sound (fun value => (later value).sound)
    fun value => (later value).idle
  idle := by
    intro target aims
    rcases aims_bind effect observes _ _ target aims with here | ⟨value, there⟩
    · exact first.idle target here
    · exact (later value).idle target there

theorem careful_attempt (program : Async Op Res ε α) (careful : Careful effect observes exec granted allowed program) :
    Careful effect observes exec granted allowed program.attempt where
  uses := uses_attempt _ _ careful.uses
  sound := grounded_attempt effect observes exec granted _ careful.sound
  idle := fun target aims => careful.idle target (aims_attempt effect observes _ target aims)

-- An observation, and then what it grants.
theorem careful_look (op : Op) (continue_ : Res op → Async Op Res ε β) (here : allowed op) (seen : observes op)
    (still : ∀ target, ¬ effect op target) (uses : ∀ value, (continue_ value).Uses allowed)
    (sound : ∀ value, (continue_ value).Grounded effect observes exec granted)
    (grants : ∀ state value, (exec op state).1 = .ok value → ∀ target, (continue_ value).Aims effect observes target →
      granted op state target) : Careful effect observes exec granted allowed (Async.perform op >>= continue_) where
  uses := uses_bind _ _ _ (uses_perform _ _ here) uses
  sound := grounded_call effect observes exec granted op continue_ fun state value ok =>
    ⟨fun _ target aims => grants state value ok target aims, sound value⟩
  idle := observing_aims effect observes op continue_ seen still

end careful

section runs

variable {Op : Type} {Res : Op → Type} {ε α Call Target State : Type} (effect : Op → Target → Prop) (observes : Op → Prop)
  (exec : (op : Op) → State → Except ε (Res op) × State) (granted : Op → State → Target → Prop)
  (allowed : Op → Prop) (body : Call → Async Op Res ε α) (guard : Pool Op Res ε α Call State → PoolEvent Call → Prop)
  (inv : State → Prop) (licensed : State → Target → Prop)

-- The state is as the invariant says, and every aim of every thread is licensed in it.
structure Sound (pool : Pool Op Res ε α Call State) : Prop where
  inv : inv pool.state
  uses : ∀ thread ∈ pool.threads, thread.rest.Uses allowed
  grounded : ∀ thread ∈ pool.threads, thread.rest.Grounded effect observes exec granted
  licensed : ∀ thread ∈ pool.threads, ∀ target, thread.rest.Aims effect observes target → licensed pool.state target

-- The rule for interleaved runs. A step keeps the invariant given the licences of its own effects, and
-- the licences of what the threads still aim at; an observation licenses what it grants.
theorem sound_run (start : Pool Op Res ε α Call State) (initial : Sound effect observes exec granted allowed inv licensed start)
    (uses : ∀ call, (body call).Uses allowed) (bodies : ∀ call, (body call).Grounded effect observes exec granted)
    (idle : ∀ call target, ¬ (body call).Aims effect observes target)
    (keeps : ∀ pool i call op rest, Sound effect observes exec granted allowed inv licensed pool → guard pool (.step i) →
      pool.threads[i]? = some ⟨call, .call op rest⟩ → inv (exec op pool.state).2)
    (others : ∀ pool i call op rest, Sound effect observes exec granted allowed inv licensed pool → guard pool (.step i) →
      pool.threads[i]? = some ⟨call, .call op rest⟩ → ∀ thread ∈ pool.threads.eraseIdx i, ∀ target,
        thread.rest.Aims effect observes target → licensed pool.state target → licensed (exec op pool.state).2 target)
    (own : ∀ pool i call op rest, Sound effect observes exec granted allowed inv licensed pool → guard pool (.step i) →
      pool.threads[i]? = some ⟨call, .call op rest⟩ → ¬ observes op → ∀ target,
        licensed pool.state target → licensed (exec op pool.state).2 target)
    (fresh : ∀ pool i call op rest, Sound effect observes exec granted allowed inv licensed pool → guard pool (.step i) →
      pool.threads[i]? = some ⟨call, .call op rest⟩ → observes op → ∀ target,
        granted op pool.state target → licensed (exec op pool.state).2 target)
    (events : List (PoolEvent Call)) (guarded : start.Guarded exec body guard events) :
    Sound effect observes exec granted allowed inv licensed (start.run exec body events) := by
  refine run_keeps exec body guard (Sound effect observes exec granted allowed inv licensed) start initial ?_ events guarded
  intro pool event sound permitted
  cases event with
  | start call =>
      refine ⟨sound.inv, ?_, ?_, ?_⟩
      · intro thread member
        rcases List.mem_append.mp member with old | new
        · exact sound.uses thread old
        · cases List.mem_singleton.mp new
          exact uses call
      · intro thread member
        rcases List.mem_append.mp member with old | new
        · exact sound.grounded thread old
        · cases List.mem_singleton.mp new
          exact bodies call
      · intro thread member target aims
        rcases List.mem_append.mp member with old | new
        · exact sound.licensed thread old target aims
        · cases List.mem_singleton.mp new
          exact absurd aims (idle call target)
  | step i =>
      rcases advance_cases exec pool i with lost | ⟨call, op, rest, found, taken⟩
      · rwa [Pool.perform, lost]
      · have grounded := sound.grounded _ (List.mem_of_getElem? found) pool.state
        have members : ∀ thread ∈ (pool.threads.set i ⟨call, rest (exec op pool.state).1⟩),
            thread = ⟨call, rest (exec op pool.state).1⟩ ∨ thread ∈ pool.threads.eraseIdx i := by
          intro thread member
          obtain ⟨j, here⟩ := List.mem_iff_getElem?.mp member
          by_cases same : i = j
          · subst same
            rw [List.getElem?_set_self (List.getElem?_eq_some_iff.mp found).1] at here
            exact Or.inl (Option.some.inj here).symm
          · rw [List.getElem?_set_ne same] at here
            exact Or.inr (List.mem_eraseIdx_iff_getElem?.mpr ⟨j, Ne.symm same, here⟩)
        have stored : ∀ thread ∈ pool.threads.eraseIdx i, thread ∈ pool.threads := fun thread member => List.mem_of_mem_eraseIdx member
        rw [Pool.perform, taken]
        refine ⟨keeps pool i call op rest sound permitted found, ?_, ?_, ?_⟩
        · intro thread member
          rcases members thread member with rfl | other
          · exact (sound.uses _ (List.mem_of_getElem? found)).2 _
          · exact sound.uses thread (stored thread other)
        · intro thread member
          rcases members thread member with rfl | other
          · exact grounded.2
          · exact sound.grounded thread (stored thread other)
        · intro thread member target aims
          rcases members thread member with rfl | other
          · by_cases observed : observes op
            · exact fresh pool i call op rest sound permitted found observed target (grounded.1 observed target aims)
            · have before := sound.licensed _ (List.mem_of_getElem? found) target (Or.inr ⟨observed, _, aims⟩)
              exact own pool i call op rest sound permitted found observed target before
          · exact others pool i call op rest sound permitted found thread other target aims
              (sound.licensed thread (stored thread other) target aims)

end runs

end Library
