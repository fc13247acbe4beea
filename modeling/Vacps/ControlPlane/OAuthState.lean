import Vacps.Library.Async
import Vacps.Library.Table

/- registry/cloudflare-oauth-repository.ts: the states of logins that have begun, and the callbacks that
   consume them. -/
set_option autoImplicit false

namespace Vacps.ControlPlane

open Library

structure CloudflareOAuthStateRow where
  state : String
  account_id : String
  zone_id : String
  base_domain : String
  return_url : Option String
  expires_at : String
  created_at : String
deriving DecidableEq, Repr

structure CloudflareOAuthState where
  state : String
  accountId : String
  zoneId : String
  baseDomain : String
  returnUrl : Option String
  expiresAt : String
  createdAt : String
deriving DecidableEq, Repr

def toState (row : CloudflareOAuthStateRow) : CloudflareOAuthState where
  state := row.state
  accountId := row.account_id
  zoneId := row.zone_id
  baseDomain := row.base_domain
  returnUrl := row.return_url.filter (· ≠ "")
  expiresAt := row.expires_at
  createdAt := row.created_at

section statements

-- The answers to come: D1 may refuse a statement, which then changes nothing.
structure OAuthDb where
  cloudflare_oauth_states : Table String CloudflareOAuthStateRow CloudflareOAuthStateRow.state
  refusals : List Bool

inductive OAuthOp where
  | selectState (state : String)
  | deleteState (state : String)
  | deleteExpired (now : String)
deriving DecidableEq

@[reducible] def OAuthOp.Result : OAuthOp → Type
  | .selectState _ => Option CloudflareOAuthStateRow
  | .deleteState _ => Unit
  | .deleteExpired _ => Unit

inductive D1Error where
  | refused
deriving DecidableEq

def OAuthOp.statement (db : OAuthDb) : (op : OAuthOp) → op.Result × OAuthDb
  | .selectState state => (db.cloudflare_oauth_states.find? state, db)
  | .deleteState state => ((), { db with cloudflare_oauth_states := db.cloudflare_oauth_states.delete (·.state == state) })
  | .deleteExpired now =>
      ((), { db with cloudflare_oauth_states := db.cloudflare_oauth_states.delete fun row => decide (row.expires_at ≤ now) })

def OAuthOp.exec (op : OAuthOp) (db : OAuthDb) : Except D1Error op.Result × OAuthDb :=
  match db.refusals with
  | true :: later => (.error .refused, { db with refusals := later })
  | false :: later => (.ok (op.statement { db with refusals := later }).1, (op.statement { db with refusals := later }).2)
  | [] => (.ok (op.statement db).1, (op.statement db).2)

end statements

section calls

abbrev OAuthCalls (α : Type) : Type := Async OAuthOp OAuthOp.Result D1Error α

def OAuthOp.call (op : OAuthOp) : OAuthCalls op.Result := Async.perform op

def consumeState (state : String) : OAuthCalls (Option CloudflareOAuthState) := do
  let row ← (OAuthOp.selectState state).call
  match row with
  | none => pure none
  | some row =>
      let _ ← (OAuthOp.deleteState state).call
      pure (some (toState row))

def removeExpiredStates (now : String) : OAuthCalls Unit := (OAuthOp.deleteExpired now).call

inductive OAuthCall where
  | consumeState (state : String)
  | removeExpiredStates (now : String)
deriving DecidableEq

-- What a call has obtained.
def OAuthCall.body : OAuthCall → OAuthCalls (Option CloudflareOAuthState)
  | .consumeState state => ControlPlane.consumeState state
  | .removeExpiredStates now => do
      ControlPlane.removeExpiredStates now
      pure none

abbrev OAuthPool : Type := Pool OAuthOp OAuthOp.Result D1Error (Option CloudflareOAuthState) OAuthCall OAuthDb

def obtained (pool : OAuthPool) (i : Nat) (state : String) : Prop :=
  ∃ login : CloudflareOAuthState, pool.threads[i]? = some (Thread.mk (.consumeState state) (.ret (some login)))

def obtainedOnce (pool : OAuthPool) : Prop := ∀ i j state, obtained pool i state → obtained pool j state → i = j

abbrev oauthRun (stored : OAuthDb) (events : List (PoolEvent OAuthCall)) : OAuthPool :=
  Pool.run OAuthOp.exec OAuthCall.body ⟨stored, []⟩ events

-- A SELECT finds the row only while no other call stands between its own SELECT and its DELETE.
def readAlone (pool : OAuthPool) (event : PoolEvent OAuthCall) : Prop :=
  ∀ i call state rest, event = .step i → pool.threads[i]? = some ⟨call, .call (.selectState state) rest⟩ →
    pool.state.cloudflare_oauth_states.find? state ≠ none →
    ∀ (j : Nat) other later, pool.threads[j]? ≠ some ⟨other, .call (.deleteState state) later⟩

end calls

section places

-- Before the SELECT, between it and the DELETE, with the login the call returns, and with none.
inductive OAuthPlace where
  | looking
  | holding (state : String)
  | took (state : String)
  | nothing
deriving DecidableEq

-- The state a place has read the row of.
def OAuthPlace.read : OAuthPlace → Option String
  | .holding state => some state
  | .took state => some state
  | _ => none

def oauthNext : OAuthCall → OAuthPlace → OAuthOp → OAuthDb → Option OAuthPlace
  | .consumeState state, .looking, .selectState other, db =>
      if other = state then
        some (match (OAuthOp.exec (.selectState state) db).1 with | .ok (some _) => .holding state | _ => .nothing)
      else none
  | .consumeState state, .holding read, .deleteState other, db =>
      if read = state ∧ other = state then
        some (match (OAuthOp.exec (.deleteState state) db).1 with | .ok _ => .took state | .error _ => .nothing)
      else none
  | .removeExpiredStates _, .looking, .deleteExpired _, _ => some .nothing
  | _, _, _, _ => none

def OAuthPlace.ends (call : OAuthCall) (place : OAuthPlace) : Except D1Error (Option CloudflareOAuthState) → Prop
  | .ok (some _) => ∃ state, call = .consumeState state ∧ place = .took state
  | _ => place = .nothing

theorem oauth_follows (call : OAuthCall) :
    call.body.Follows OAuthOp.exec (oauthNext call) .looking (OAuthPlace.ends call) := by
  cases call with
  | consumeState state =>
      refine follows_call OAuthOp.exec _ _ _ _ _ fun db => ⟨_, if_pos rfl, ?_, fun error failed => by rw [failed]; rfl⟩
      intro row read
      rw [read]
      cases row with
      | none => exact rfl
      | some row =>
          refine follows_call OAuthOp.exec _ _ _ _ _ fun later => ⟨_, if_pos ⟨rfl, rfl⟩, ?_, fun error failed => by rw [failed]; rfl⟩
          intro gone deleted
          rw [deleted]
          exact ⟨state, rfl, rfl⟩
  | removeExpiredStates now =>
      exact follows_call OAuthOp.exec _ _ _ _ _ fun db => ⟨_, rfl, fun _ _ => rfl, fun _ _ => rfl⟩

end places

section singleUse

-- One place at most has read a row, and a row that was taken is gone.
structure SingleUse (db : OAuthDb) (places : List OAuthPlace) : Prop where
  alone : ∀ (i j : Nat) (first second : OAuthPlace) (state : String), places[i]? = some first → places[j]? = some second →
    first.read = some state → second.read = some state → i = j
  gone : ∀ state, .took state ∈ places → db.cloudflare_oauth_states.find? state = none

-- No statement brings a row back.
theorem statement_gone (op : OAuthOp) (db : OAuthDb) (state : String) (gone : db.cloudflare_oauth_states.find? state = none) :
    (op.statement db).2.cloudflare_oauth_states.find? state = none := by
  cases op with
  | selectState other => exact gone
  | deleteState other => simp [OAuthOp.statement, Table.find_remaining, gone]
  | deleteExpired now => simp [OAuthOp.statement, Table.find_remaining, gone]

theorem exec_gone (op : OAuthOp) (db : OAuthDb) (state : String) (gone : db.cloudflare_oauth_states.find? state = none) :
    (OAuthOp.exec op db).2.cloudflare_oauth_states.find? state = none := by
  unfold OAuthOp.exec
  split
  · exact gone
  · exact statement_gone op _ state gone
  · exact statement_gone op db state gone

theorem select_found (state : String) (db : OAuthDb) (row : CloudflareOAuthStateRow)
    (read : (OAuthOp.exec (.selectState state) db).1 = .ok (some row)) : db.cloudflare_oauth_states.find? state = some row := by
  unfold OAuthOp.exec at read
  split at read
  · cases read
  · exact Except.ok.inj read
  · exact Except.ok.inj read

theorem delete_gone (state : String) (db : OAuthDb) (answer : Unit) (deleted : (OAuthOp.exec (.deleteState state) db).1 = .ok answer) :
    (OAuthOp.exec (.deleteState state) db).2.cloudflare_oauth_states.find? state = none := by
  have removed : ∀ table : Table String CloudflareOAuthStateRow CloudflareOAuthStateRow.state,
      (table.delete (·.state == state)).find? state = none := by
    intro table
    have here := table.find_delete state state
    rwa [if_pos rfl] at here
  unfold OAuthOp.exec at deleted ⊢
  split at deleted
  · cases deleted
  · exact removed _
  · exact removed _

-- A step ends with nothing, reads a row that is there, or takes the row it read away.
theorem oauth_next_cases (call : OAuthCall) (place there : OAuthPlace) (op : OAuthOp) (db : OAuthDb)
    (moved : oauthNext call place op db = some there) :
    there = .nothing ∨
      (∃ state, place = .looking ∧ op = .selectState state ∧ db.cloudflare_oauth_states.find? state ≠ none ∧
        there = .holding state) ∨
      ∃ state, place = .holding state ∧ op = .deleteState state ∧
        (OAuthOp.exec op db).2.cloudflare_oauth_states.find? state = none ∧ there = .took state := by
  unfold oauthNext at moved
  split at moved
  · split at moved
    · rename_i state other same
      cases same
      cases read : (OAuthOp.exec (.selectState state) db).1 with
      | error error =>
          simp only [read, Option.some.injEq] at moved
          exact Or.inl moved.symm
      | ok found =>
          cases found with
          | none =>
              simp only [read, Option.some.injEq] at moved
              exact Or.inl moved.symm
          | some row =>
              simp only [read, Option.some.injEq] at moved
              exact Or.inr (Or.inl ⟨state, rfl, rfl, by simp [select_found state db row read], moved.symm⟩)
    · cases moved
  · split at moved
    · rename_i state holds other same
      obtain ⟨rfl, rfl⟩ := same
      cases deleted : (OAuthOp.exec (.deleteState other) db).1 with
      | error error =>
          simp only [deleted, Option.some.injEq] at moved
          exact Or.inl moved.symm
      | ok answer =>
          simp only [deleted, Option.some.injEq] at moved
          exact Or.inr (Or.inr ⟨other, rfl, rfl, delete_gone other db answer deleted, moved.symm⟩)
    · cases moved
  · exact Or.inl (Option.some.inj moved).symm
  · cases moved

-- A call that holds a row goes on with the DELETE.
theorem holding_deletes (call : OAuthCall) (state : String) (rest : OAuthCalls (Option CloudflareOAuthState))
    (follows : rest.Follows OAuthOp.exec (oauthNext call) (.holding state) (OAuthPlace.ends call)) (db : OAuthDb) :
    ∃ later, rest = .call (.deleteState state) later := by
  cases rest with
  | ret value =>
      cases value with
      | none => cases follows
      | some login =>
          obtain ⟨_, _, took⟩ := follows
          cases took
  | fail error => cases follows
  | call op later =>
      obtain ⟨there, moved, _⟩ := follows db
      cases op with
      | selectState other => cases call <;> cases moved
      | deleteExpired now => cases call <;> cases moved
      | deleteState other =>
          cases call with
          | removeExpiredStates now => cases moved
          | consumeState own =>
              by_cases same : state = own ∧ other = own
              · obtain ⟨rfl, rfl⟩ := same
                exact ⟨later, rfl⟩
              · simp [oauthNext, same] at moved

-- What a step must give: a row is read by one that had read it or by the first to do so.
theorem single_use_moved (after : OAuthDb) (places : List OAuthPlace) (i : Nat) (place there : OAuthPlace)
    (located : places[i]? = some place)
    (alone : ∀ (j k : Nat) (first second : OAuthPlace) (state : String), places[j]? = some first → places[k]? = some second →
      first.read = some state → second.read = some state → j = k)
    (reads : ∀ state, there.read = some state → place.read = some state ∨ ∀ other ∈ places, other.read ≠ some state)
    (gone : ∀ state, .took state ∈ places ∨ there = .took state → after.cloudflare_oauth_states.find? state = none) :
    SingleUse after (places.set i there) where
  alone := by
    -- The row that the moved place has read is read nowhere else.
    have others : ∀ (k : Nat) (other : OAuthPlace) (state : String), places[k]? = some other → there.read = some state →
        other.read = some state → i = k := by
      intro k other state found mine yours
      rcases reads state mine with had | none_
      · exact alone i k place other state located found had yours
      · exact absurd yours (none_ other (List.mem_of_getElem? found))
    intro j k first second state here there_ mine yours
    rcases (located_set places i j place there first located).mp here with ⟨rfl, rfl⟩ | ⟨_, before⟩
    · rcases (located_set places j k place first second located).mp there_ with ⟨rfl, rfl⟩ | ⟨_, later⟩
      · rfl
      · exact others k second state later mine yours
    · rcases (located_set places i k place there second located).mp there_ with ⟨rfl, rfl⟩ | ⟨_, later⟩
      · exact (others j first state before yours mine).symm
      · exact alone j k first second state before later mine yours
  gone := by
    intro state member
    rcases List.mem_or_eq_of_mem_set member with before | same
    · exact gone state (Or.inl before)
    · exact gone state (Or.inr same.symm)

theorem single_use_step (db : OAuthDb) (places : List OAuthPlace) (ready : SingleUse db places) (i : Nat) (call : OAuthCall)
    (op : OAuthOp) (place there : OAuthPlace) (located : places[i]? = some place) (moved : oauthNext call place op db = some there)
    (unread : ∀ state, op = .selectState state → db.cloudflare_oauth_states.find? state ≠ none → .holding state ∉ places) :
    SingleUse (OAuthOp.exec op db).2 (places.set i there) := by
  have kept : ∀ state, .took state ∈ places → (OAuthOp.exec op db).2.cloudflare_oauth_states.find? state = none :=
    fun state member => exec_gone op db state (ready.gone state member)
  rcases oauth_next_cases call place there op db moved with rfl | ⟨state, rfl, rfl, found, rfl⟩ | ⟨state, rfl, rfl, deleted, rfl⟩
  · refine single_use_moved _ places i place .nothing located ready.alone (fun state reads => by cases reads) ?_
    rintro state (took | same)
    · exact kept state took
    · cases same
  · refine single_use_moved _ places i .looking (.holding state) located ready.alone ?_ ?_
    · intro other reads
      cases reads
      refine Or.inr fun elsewhere member read => ?_
      cases elsewhere with
      | looking => cases read
      | nothing => cases read
      | holding same =>
          cases read
          exact unread state rfl found member
      | took same =>
          cases read
          exact found (ready.gone state member)
    · rintro other (took | same)
      · exact kept other took
      · cases same
  · refine single_use_moved _ places i (.holding state) (.took state) located ready.alone (fun other reads => Or.inl reads) ?_
    rintro other (took | same)
    · exact kept other took
    · cases same
      exact deleted

end singleUse

-- In every run in which no row is read twice before it is deleted, one call at most obtains a login.
theorem single_use (stored : OAuthDb) (events : List (PoolEvent OAuthCall))
    (guarded : Pool.Guarded OAuthOp.exec OAuthCall.body readAlone ⟨stored, []⟩ events) : obtainedOnce (oauthRun stored events) := by
  have initial : SingleUse stored [] := ⟨(fun i j first second state found => by simp at found), (fun state member => by simp at member)⟩
  have spawned : ∀ (pool : OAuthPool) (places : List OAuthPlace) (call : OAuthCall), SingleUse pool.state places →
      readAlone pool (.start call) → SingleUse pool.state (places ++ [.looking]) := by
    intro pool places call ready allowed
    refine ⟨?_, ?_⟩
    · intro j k first second state here there mine yours
      rcases located_append places j .looking first here with rfl | before
      · cases mine
      · rcases located_append places k .looking second there with rfl | later
        · cases yours
        · exact ready.alone j k first second state before later mine yours
    · intro state member
      exact ready.gone state (by simpa using member)
  have stepped : ∀ (pool : OAuthPool) (places : List OAuthPlace) (i : Nat) (call : OAuthCall) (op : OAuthOp)
      (rest : Except D1Error op.Result → OAuthCalls (Option CloudflareOAuthState)) (place there : OAuthPlace),
      Aligned OAuthOp.exec oauthNext OAuthPlace.ends pool.threads places → SingleUse pool.state places →
      readAlone pool (.step i) → pool.threads[i]? = some ⟨call, .call op rest⟩ → places[i]? = some place →
      oauthNext call place op pool.state = some there → SingleUse (OAuthOp.exec op pool.state).2 (places.set i there) := by
    intro pool places i call op rest place there aligned ready allowed found located moved
    refine single_use_step pool.state places ready i call op place there located moved ?_
    rintro state rfl present member
    obtain ⟨j, held⟩ := List.getElem?_of_mem member
    have bound := (List.getElem?_eq_some_iff.mp held).1
    rw [aligned.size] at bound
    have other := List.getElem?_eq_getElem bound
    obtain ⟨later, next⟩ := holding_deletes _ state _ (aligned.follows j _ _ other held) pool.state
    refine allowed i call state rest rfl found present j pool.threads[j].call later ?_
    rw [other, ← next]
  obtain ⟨places, aligned, ready⟩ := run_outline OAuthOp.exec oauthNext OAuthCall.body (fun _ => .looking) OAuthPlace.ends
    oauth_follows SingleUse readAlone stored initial spawned stepped events guarded
  have took : ∀ k state, obtained (oauthRun stored events) k state → places[k]? = some (.took state) := by
    rintro k state ⟨login, ended⟩
    obtain ⟨place, located, follows⟩ := aligned_place OAuthOp.exec oauthNext OAuthPlace.ends _ _ aligned k _ ended
    obtain ⟨own, same, rfl⟩ := follows
    cases same
    exact located
  intro i j state first second
  exact ready.alone i j _ _ state (took i state first) (took j state second) rfl rfl

def readAloneNow (pool : OAuthPool) : PoolEvent OAuthCall → Bool
  | .start _ => true
  | .step i =>
      match pool.threads[i]? with
      | some ⟨_, .call (.selectState state) _⟩ =>
          (pool.state.cloudflare_oauth_states.find? state).isNone ||
            pool.threads.all fun thread =>
              match thread.rest with
              | .call (.deleteState other) _ => other != state
              | _ => true
      | _ => true

theorem read_alone_now (pool : OAuthPool) (event : PoolEvent OAuthCall) (alone : readAloneNow pool event = true) :
    readAlone pool event := by
  intro i call state rest stepped found present j other later held
  subst stepped
  simp only [readAloneNow, found, Bool.or_eq_true, Option.isNone_iff_eq_none, List.all_eq_true] at alone
  have all := alone.resolve_left present _ (List.mem_of_getElem? held)
  simp at all

def loginState : CloudflareOAuthStateRow where
  state := "s1"
  account_id := "acc"
  zone_id := ""
  base_domain := ""
  return_url := some "https://panel.example/"
  expires_at := "2026-01-01T00:10:00.000Z"
  created_at := "2026-01-01T00:00:00.000Z"

def begunLogin : OAuthDb := ⟨⟨[loginState], List.nodup_singleton _⟩, []⟩

def consumeTwice : List (PoolEvent OAuthCall) := [.start (.consumeState "s1"), .start (.consumeState "s1")]

theorem single_use_in_turn :
    obtained (oauthRun begunLogin (consumeTwice ++ [.step 0, .step 0, .step 1])) 0 "s1" ∧
      obtainedOnce (oauthRun begunLogin (consumeTwice ++ [.step 0, .step 0, .step 1])) :=
  ⟨⟨toState loginState, rfl⟩, single_use begunLogin (consumeTwice ++ [.step 0, .step 0, .step 1])
    (guarded_passes _ _ readAlone readAloneNow read_alone_now _ _ (by decide +kernel))⟩

-- Both callbacks read the row before either deletes it.
theorem both_obtain :
    obtained (oauthRun begunLogin (consumeTwice ++ [.step 0, .step 1, .step 0, .step 1])) 0 "s1" ∧
      obtained (oauthRun begunLogin (consumeTwice ++ [.step 0, .step 1, .step 0, .step 1])) 1 "s1" ∧
      ¬∀ stored events, obtainedOnce (oauthRun stored events) := by
  have first : obtained (oauthRun begunLogin (consumeTwice ++ [.step 0, .step 1, .step 0, .step 1])) 0 "s1" :=
    ⟨toState loginState, rfl⟩
  have second : obtained (oauthRun begunLogin (consumeTwice ++ [.step 0, .step 1, .step 0, .step 1])) 1 "s1" :=
    ⟨toState loginState, rfl⟩
  refine ⟨first, second, fun always => ?_⟩
  exact absurd (always begunLogin _ 0 1 "s1" first second) (by decide)

end Vacps.ControlPlane
