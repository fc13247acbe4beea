import Vacps.Library.Async

/- Things in the hands of the threads of a pool: what a call hands its thread, the thread's next call holds. -/
set_option autoImplicit false

namespace Library

section programs

variable {Op : Type} {Res : Op → Type} {ε α β State Item : Type} (exec : (op : Op) → State → Except ε (Res op) × State)
  (hands : Op → State → Item → Prop) (holds : Op → Item → Prop)

-- The next call of the program holds the item.
def Async.Holds : Async Op Res ε α → Item → Prop
  | .ret _, _ => False
  | .fail _, _ => False
  | .call op _, item => holds op item

-- Whatever state a call meets, what it hands out is what the call that comes next holds.
def Async.Careful : Async Op Res ε α → Prop
  | .ret _ => True
  | .fail _ => True
  | .call op rest =>
      ∀ state, (∀ item, (rest (exec op state).1).Holds holds item ↔ hands op state item) ∧ Async.Careful (rest (exec op state).1)

-- The second program holds nothing when it starts.
theorem careful_then (program : Async Op Res ε α) (continue_ : α → Async Op Res ε β) (first : program.Careful exec hands holds)
    (later : ∀ value, (continue_ value).Careful exec hands holds) (idle : ∀ value item, ¬(continue_ value).Holds holds item) :
    (program >>= continue_).Careful exec hands holds := by
  induction program with
  | ret value => exact later value
  | fail error => exact trivial
  | call op rest ih =>
      intro state
      obtain ⟨handed, inside⟩ := first state
      refine ⟨fun item => ?_, ih _ inside⟩
      have here := handed item
      change ((rest (exec op state).1).bind continue_).Holds holds item ↔ _
      cases next : rest (exec op state).1 with
      | ret value =>
          rw [next] at here
          exact iff_of_false (idle value item) here.mpr
      | fail error =>
          rw [next] at here
          exact here
      | call following more =>
          rw [next] at here
          exact here

-- A call that hands out nothing.
theorem careful_perform (op : Op) (nothing : ∀ state item, ¬hands op state item) :
    (Async.perform op : Async Op Res ε (Res op)).Careful exec hands holds := by
  intro state
  cases (exec op state).1 <;> exact ⟨fun item => iff_of_false id (nothing state item), trivial⟩

-- One call and what comes after it, which holds what the call hands out.
theorem careful_call (op : Op) (continue_ : Res op → Async Op Res ε β)
    (step : ∀ state value, (exec op state).1 = .ok value →
      (∀ item, (continue_ value).Holds holds item ↔ hands op state item) ∧ (continue_ value).Careful exec hands holds)
    (failed : ∀ state error item, (exec op state).1 = .error error → ¬hands op state item) :
    (Async.perform op >>= continue_).Careful exec hands holds := by
  intro state
  cases result : (exec op state).1 with
  | ok value => exact step state value result
  | error error => exact ⟨fun item => iff_of_false id (failed state error item result), trivial⟩

-- The same where the program goes on behind a failure too.
theorem careful_asked (op : Op) (continue_ : Except ε (Res op) → Async Op Res ε β)
    (step : ∀ state, (∀ item, (continue_ (exec op state).1).Holds holds item ↔ hands op state item) ∧
      (continue_ (exec op state).1).Careful exec hands holds) :
    ((Async.perform op).attempt >>= continue_).Careful exec hands holds := by
  intro state
  have here := step state
  generalize (exec op state).1 = answer at here ⊢
  cases answer <;> exact here

theorem idle_bind (program : Async Op Res ε α) (continue_ : α → Async Op Res ε β) (item : Item) (first : ¬program.Holds holds item)
    (later : ∀ value, ¬(continue_ value).Holds holds item) : ¬(program >>= continue_).Holds holds item := by
  cases program with
  | ret value => exact later value
  | fail error => exact id
  | call op rest => exact first

theorem idle_for_each (items : List β) (body : β → Async Op Res ε Unit) (item : Item) (idle : ∀ entry, ¬(body entry).Holds holds item) :
    ¬(Async.forEach items body).Holds holds item := by
  induction items with
  | nil => exact id
  | cons entry rest ih => exact idle_bind holds (body entry) _ item (idle entry) fun _ => ih

theorem careful_for_each (items : List β) (body : β → Async Op Res ε Unit) (each : ∀ entry, (body entry).Careful exec hands holds)
    (idle : ∀ entry item, ¬(body entry).Holds holds item) : (Async.forEach items body).Careful exec hands holds := by
  induction items with
  | nil => exact trivial
  | cons entry rest ih =>
      exact careful_then exec hands holds (body entry) _ (each entry) (fun _ => ih)
        fun _ item => idle_for_each holds rest body item fun other => idle other item

end programs

section pools

variable {Op : Type} {Res : Op → Type} {ε α Call State Item : Type} (exec : (op : Op) → State → Except ε (Res op) × State)
  (hands : Op → State → Item → Prop) (holds : Op → Item → Prop)

def InHand (threads : List (Thread Op Res ε α Call)) (item : Item) : Prop := ∃ thread ∈ threads, thread.rest.Holds holds item

-- Behind a step of a thread an item is in the hands it was in, unless the step held it.
theorem hand_kept (threads : List (Thread Op Res ε α Call)) (i : Nat) (call : Call) (op : Op) (rest : Except ε (Res op) → Async Op Res ε α)
    (found : threads[i]? = some ⟨call, .call op rest⟩) (later : Thread Op Res ε α Call) (item : Item)
    (held : InHand holds threads item) : holds op item ∨ InHand holds (threads.set i later) item := by
  obtain ⟨thread, member, holding⟩ := held
  obtain ⟨j, located⟩ := List.mem_iff_getElem?.mp member
  by_cases same : j = i
  · subst same
    rw [found] at located
    cases Option.some.inj located
    exact Or.inl holding
  · refine Or.inr ⟨thread, List.mem_iff_getElem?.mpr ⟨j, ?_⟩, holding⟩
    rw [List.getElem?_set_ne (Ne.symm same)]
    exact located

-- What a step hands out is in the hands of its thread.
theorem hand_given (threads : List (Thread Op Res ε α Call)) (i : Nat) (call : Call) (op : Op)
    (rest : Except ε (Res op) → Async Op Res ε α) (found : threads[i]? = some ⟨call, .call op rest⟩) (state : State)
    (careful : (Async.call op rest).Careful exec hands holds) (item : Item) (given : hands op state item) :
    InHand holds (threads.set i ⟨call, rest (exec op state).1⟩) item := by
  have bound := (List.getElem?_eq_some_iff.mp found).1
  exact ⟨_, List.mem_set bound _, ((careful state).1 item).mpr given⟩

-- Nothing gets into the hands of a thread in another way.
theorem hand_cases (threads : List (Thread Op Res ε α Call)) (i : Nat) (call : Call) (op : Op)
    (rest : Except ε (Res op) → Async Op Res ε α) (state : State) (careful : (Async.call op rest).Careful exec hands holds) (item : Item)
    (held : InHand holds (threads.set i ⟨call, rest (exec op state).1⟩) item) : InHand holds threads item ∨ hands op state item := by
  obtain ⟨thread, member, holding⟩ := held
  rcases List.mem_or_eq_of_mem_set member with old | rfl
  · exact Or.inl ⟨thread, old, holding⟩
  · exact Or.inr (((careful state).1 item).mp holding)

end pools

end Library
