import Vacps.Agent.ControlPlaneVerify
import Vacps.Library.Ledger
import Vacps.Library.Runs
import Vacps.Library.Table

/- TaskStore.claimNonce under the preValidation hook: a request is verified, claimNonce reads the clock,
   and its transaction purges the nonces that are over and books this one. -/
set_option autoImplicit false

namespace Vacps.Server

open Library

structure RequestNonce where
  nonce : String
  expires_at : Int
deriving DecidableEq, Repr

abbrev RequestNonces : Type := Table String RequestNonce RequestNonce.nonce

-- A verified request on its way through claimNonce, with the second claimNonce read once it has.
structure Claiming where
  signed : SignedRequest
  now : Option Int
deriving DecidableEq, Repr

structure NonceState where
  clock : Int
  request_nonces : RequestNonces
  claiming : List Claiming
  accepted : List SignedRequest

inductive NonceEvent where
  | pass (now : Int)
  | receive (inbound : ServerRequest)
  | claimNonce (i : Nat)
  | transact (i : Nat)
  | giveUp (i : Nat)

def ttlSeconds : Int := 600

def RequestNonces.purge (table : RequestNonces) (now : Int) : RequestNonces :=
  table.delete fun row => decide (row.expires_at < now)

namespace NonceState

def erased (state : NonceState) (i : Nat) : NonceState := { state with claiming := state.claiming.eraseIdx i }

def purged (state : NonceState) (now : Int) : NonceState :=
  { state with request_nonces := state.request_nonces.purge now }

def booked (state : NonceState) (signed : SignedRequest) (now : Int)
    (fresh : state.request_nonces.find? signed.nonce = none) : NonceState :=
  { state with
    request_nonces := state.request_nonces.insert ⟨signed.nonce, now + ttlSeconds⟩ fresh
    accepted := signed :: state.accepted }

-- claimNonce answers true when its INSERT changed one row.
def transaction (state : NonceState) (i : Nat) (signed : SignedRequest) (now : Int) : NonceState :=
  if fresh : (state.purged now).request_nonces.find? signed.nonce = none then
    ((state.purged now).booked signed now fresh).erased i
  else (state.purged now).erased i

def admitted (state : NonceState) : Validation → NonceState
  | .claims signed => { state with claiming := state.claiming ++ [⟨signed, none⟩] }
  | .passed | .refused _ => state

def step (web : Web) (config : AuthConfig) (state : NonceState) : NonceEvent → NonceState
  | .pass now => { state with clock := max state.clock now }
  | .receive inbound => state.admitted (preValidation web config state.clock inbound)
  | .claimNonce i =>
      match state.claiming[i]? with
      | some ⟨signed, none⟩ => { state with claiming := state.claiming.set i ⟨signed, some (state.clock / 1000)⟩ }
      | _ => state
  | .transact i =>
      match state.claiming[i]? with
      | some ⟨signed, some now⟩ => state.transaction i signed now
      | _ => state
  | .giveUp i => state.erased i

-- The purge of a claim takes no nonce from under a request that was accepted and verified once more.
def Spares (state : NonceState) : NonceEvent → Prop
  | .transact i => ∀ claim ∈ state.claiming[i]?, ∀ now ∈ claim.now, ∀ other ∈ state.claiming,
      other.signed ∈ state.accepted → ∀ row ∈ state.request_nonces.find? other.signed.nonce, now ≤ row.expires_at
  | _ => True

instance (state : NonceState) : (event : NonceEvent) → Decidable (state.Spares event)
  | .transact i => inferInstanceAs (Decidable (∀ claim ∈ state.claiming[i]?, ∀ now ∈ claim.now,
      ∀ other ∈ state.claiming, other.signed ∈ state.accepted →
        ∀ row ∈ state.request_nonces.find? other.signed.nonce, now ≤ row.expires_at))
  | .pass _ | .receive _ | .claimNonce _ | .giveUp _ => inferInstanceAs (Decidable True)

def gate : Gate SignedRequest String where
  key := SignedRequest.nonce
  fresh := fun signed clock => timely signed.timestamp clock = true

def ledger (state : NonceState) : Ledger SignedRequest String where
  clock := state.clock
  held := fun nonce => state.request_nonces.find? nonce ≠ none
  awaiting := state.claiming.map Claiming.signed
  accepted := state.accepted

-- The last second in which the request verifies.
def deadline (signed : SignedRequest) : Int := (safeInteger signed.timestamp).getD 0 + MAX_CLOCK_SKEW_SECONDS

theorem timely_deadline (signed : SignedRequest) (now : Int) (near : timely signed.timestamp now = true) :
    now / 1000 ≤ deadline signed ∧ deadline signed ≤ now / 1000 + ttlSeconds := by
  simp only [timely] at near
  cases read : safeInteger signed.timestamp with
  | none => simp [read] at near
  | some parsed =>
      simp only [read, decide_eq_true_eq, abs_le, MAX_CLOCK_SKEW_SECONDS] at near
      simp only [deadline, read, Option.getD_some, ttlSeconds, MAX_CLOCK_SKEW_SECONDS]
      omega

theorem stale_after (signed : SignedRequest) (clock : Int) (past : deadline signed < clock / 1000) :
    gate.Stale signed clock := by
  intro later after fresh
  have bound := (timely_deadline signed later fresh).1
  have order : clock / 1000 ≤ later / 1000 := Int.ediv_le_ediv (by decide) after
  omega

-- A row outlives the window of the request it stands for, as the lifetime is twice the skew.
structure Covered (state : NonceState) : Prop where
  waiting : ∀ claim ∈ state.claiming, deadline claim.signed ≤ claim.now.getD (state.clock / 1000) + ttlSeconds
  read : ∀ claim ∈ state.claiming, ∀ now ∈ claim.now, now ≤ state.clock / 1000
  covers : ∀ signed ∈ state.accepted, deadline signed < state.clock / 1000 ∨
    ∃ row, state.request_nonces.find? signed.nonce = some row ∧ deadline signed ≤ row.expires_at

theorem remaining_waited (state : NonceState) (i : Nat) (claim : Claiming) (member : claim ∈ state.claiming.eraseIdx i) :
    claim.signed ∈ state.claiming.map Claiming.signed :=
  List.mem_map.mpr ⟨claim, List.mem_of_mem_eraseIdx member, rfl⟩

theorem erased_covered (state : NonceState) (i : Nat) (covered : state.Covered) : (state.erased i).Covered where
  waiting := fun claim member => covered.waiting claim (List.mem_of_mem_eraseIdx member)
  read := fun claim member => covered.read claim (List.mem_of_mem_eraseIdx member)
  covers := covered.covers

theorem erased_ledger (state : NonceState) (i : Nat) : gate.Steps state.ledger (state.erased i).ledger := by
  refine Relation.ReflTransGen.single (Gate.Step.leave _ _ ?_)
  intro other member
  obtain ⟨claim, inside, rfl⟩ := List.mem_map.mp member
  exact state.remaining_waited i claim inside

theorem find_purged (table : RequestNonces) (now : Int) (nonce : String) :
    (table.purge now).find? nonce = (table.find? nonce).filter fun row => !decide (row.expires_at < now) :=
  table.find_remaining _ nonce

-- The purge with a second the clock has reached.
theorem purged_covered (state : NonceState) (now : Int) (reached : now ≤ state.clock / 1000) (covered : state.Covered) :
    (state.purged now).Covered where
  waiting := covered.waiting
  read := covered.read
  covers := by
    intro signed accepted
    rcases covered.covers signed accepted with past | ⟨row, stored, covers⟩
    · exact Or.inl past
    · by_cases lapsed : row.expires_at < now
      · exact Or.inl (by change deadline signed < state.clock / 1000; omega)
      · exact Or.inr ⟨row, by simp [purged, find_purged, stored, lapsed], covers⟩

theorem purged_ledger (state : NonceState) (now : Int) (reached : now ≤ state.clock / 1000) (covered : state.Covered)
    (spared : ∀ other ∈ state.claiming, other.signed ∈ state.accepted →
      ∀ row ∈ state.request_nonces.find? other.signed.nonce, now ≤ row.expires_at) :
    gate.Steps state.ledger (state.purged now).ledger := by
  refine Relation.ReflTransGen.single (Gate.Step.forget _ _ ?_)
  intro signed accepted held lost
  cases stored : state.request_nonces.find? signed.nonce with
  | none => exact absurd stored held
  | some row =>
      have lapsed : row.expires_at < now := by
        by_contra stays
        exact lost (by simp [gate, purged, find_purged, stored, stays])
      have past : deadline signed < state.clock / 1000 := by
        rcases covered.covers signed accepted with past | ⟨same, found, covers⟩
        · exact past
        · have equal : same = row := Option.some.inj (found.symm.trans stored)
          rw [equal] at covers
          omega
      refine ⟨?_, stale_after signed state.clock past⟩
      intro waiting
      obtain ⟨claim, member, same⟩ := List.mem_map.mp waiting
      have stays := spared claim member (same ▸ accepted) row (same ▸ stored)
      omega

theorem find_booked (state : NonceState) (signed : SignedRequest) (now : Int)
    (fresh : state.request_nonces.find? signed.nonce = none) (nonce : String) :
    (state.booked signed now fresh).request_nonces.find? nonce =
      if signed.nonce = nonce then some ⟨signed.nonce, now + ttlSeconds⟩ else state.request_nonces.find? nonce :=
  Table.find_insert _ _ fresh nonce

theorem booked_covered (state : NonceState) (signed : SignedRequest) (now : Int)
    (fresh : state.request_nonces.find? signed.nonce = none) (window : deadline signed ≤ now + ttlSeconds)
    (covered : state.Covered) : (state.booked signed now fresh).Covered where
  waiting := covered.waiting
  read := covered.read
  covers := by
    intro other accepted
    rcases List.mem_cons.mp accepted with same | already
    · rw [same]
      refine Or.inr ⟨⟨signed.nonce, now + ttlSeconds⟩, ?_, window⟩
      rw [find_booked, if_pos rfl]
    · rcases covered.covers other already with past | ⟨row, stored, covers⟩
      · exact Or.inl past
      · have different : signed.nonce ≠ other.nonce := by
          intro same
          rw [← same, fresh] at stored
          cases stored
        refine Or.inr ⟨row, ?_, covers⟩
        rw [find_booked, if_neg different, stored]

theorem booked_ledger (state : NonceState) (signed : SignedRequest) (now : Int)
    (fresh : state.request_nonces.find? signed.nonce = none)
    (waiting : signed ∈ state.claiming.map Claiming.signed) :
    gate.Steps state.ledger (state.booked signed now fresh).ledger := by
  refine Relation.ReflTransGen.single (Gate.Step.claim _ signed _ waiting (fun held => held fresh) ?_ ?_)
  · rw [find_booked]
    simp [gate]
  · intro nonce held
    rw [find_booked]
    split
    · simp
    · exact held

theorem transaction_step (state : NonceState) (i : Nat) (signed : SignedRequest) (now : Int)
    (here : state.claiming[i]? = some ⟨signed, some now⟩) (covered : state.Covered)
    (spared : state.Spares (.transact i)) :
    gate.Steps state.ledger (state.transaction i signed now).ledger ∧ (state.transaction i signed now).Covered := by
  have member : (⟨signed, some now⟩ : Claiming) ∈ state.claiming := List.mem_of_getElem? here
  have reached : now ≤ state.clock / 1000 := covered.read _ member now rfl
  have window : deadline signed ≤ now + ttlSeconds := by simpa only [Option.getD_some] using covered.waiting _ member
  have spares : ∀ other ∈ state.claiming, other.signed ∈ state.accepted →
      ∀ row ∈ state.request_nonces.find? other.signed.nonce, now ≤ row.expires_at :=
    spared ⟨signed, some now⟩ here now rfl
  have purgedCovered := state.purged_covered now reached covered
  have purgedSteps := state.purged_ledger now reached covered spares
  have waiting : signed ∈ (state.purged now).claiming.map Claiming.signed := List.mem_map.mpr ⟨_, member, rfl⟩
  by_cases fresh : (state.purged now).request_nonces.find? signed.nonce = none
  · have result : state.transaction i signed now = ((state.purged now).booked signed now fresh).erased i := dif_pos fresh
    have bookedSteps := (state.purged now).booked_ledger signed now fresh waiting
    have bookedCovered := (state.purged now).booked_covered signed now fresh window purgedCovered
    have erasedSteps := ((state.purged now).booked signed now fresh).erased_ledger i
    rw [result]
    exact ⟨(purgedSteps.trans bookedSteps).trans erasedSteps, erased_covered _ i bookedCovered⟩
  · have result : state.transaction i signed now = (state.purged now).erased i := dif_neg fresh
    rw [result]
    exact ⟨purgedSteps.trans ((state.purged now).erased_ledger i), erased_covered _ i purgedCovered⟩

theorem passed_covered (state : NonceState) (now : Int) (covered : state.Covered) :
    Covered { state with clock := max state.clock now } := by
  have order : state.clock / 1000 ≤ max state.clock now / 1000 := Int.ediv_le_ediv (by decide) (le_max_left _ _)
  refine ⟨?_, ?_, ?_⟩
  · intro claim member
    have window := covered.waiting claim member
    cases read : claim.now with
    | none =>
        simp only [read, Option.getD_none] at window ⊢
        omega
    | some second => simpa only [read, Option.getD_some] using window
  · intro claim member second read
    exact (covered.read claim member second read).trans order
  · intro signed accepted
    rcases covered.covers signed accepted with past | held
    · exact Or.inl (past.trans_le order)
    · exact Or.inr held

theorem admitted_covered (state : NonceState) (validation : Validation) (covered : state.Covered)
    (near : ∀ signed, validation = .claims signed → timely signed.timestamp state.clock = true) :
    (state.admitted validation).Covered := by
  cases validation with
  | passed => exact covered
  | refused refusal => exact covered
  | claims signed =>
      refine ⟨?_, ?_, covered.covers⟩
      · intro claim member
        rcases List.mem_append.mp member with before | last
        · exact covered.waiting claim before
        · rw [List.mem_singleton.mp last]
          exact (timely_deadline signed state.clock (near signed rfl)).2
      · intro claim member second read
        rcases List.mem_append.mp member with before | last
        · exact covered.read claim before second read
        · rw [List.mem_singleton.mp last] at read
          cases read

theorem admitted_ledger (state : NonceState) (validation : Validation)
    (near : ∀ signed, validation = .claims signed → timely signed.timestamp state.clock = true) :
    gate.Steps state.ledger (state.admitted validation).ledger := by
  cases validation with
  | passed => exact Relation.ReflTransGen.refl
  | refused refusal => exact Relation.ReflTransGen.refl
  | claims signed =>
      refine Relation.ReflTransGen.single (Gate.Step.enter state.ledger signed (near signed rfl) _ ?_)
      intro other member
      obtain ⟨claim, inside, rfl⟩ := List.mem_map.mp member
      rcases List.mem_append.mp inside with before | last
      · exact Or.inr (List.mem_map.mpr ⟨claim, before, rfl⟩)
      · exact Or.inl (congrArg Claiming.signed (List.mem_singleton.mp last))

theorem timed_covered (state : NonceState) (i : Nat) (signed : SignedRequest)
    (here : state.claiming[i]? = some ⟨signed, none⟩) (covered : state.Covered) :
    Covered { state with claiming := state.claiming.set i ⟨signed, some (state.clock / 1000)⟩ } := by
  have window := covered.waiting _ (List.mem_of_getElem? here)
  refine ⟨?_, ?_, covered.covers⟩
  · intro claim member
    rcases List.mem_or_eq_of_mem_set member with before | new
    · exact covered.waiting claim before
    · rw [new]
      simpa only [Option.getD_some, Option.getD_none] using window
  · intro claim member second read
    rcases List.mem_or_eq_of_mem_set member with before | new
    · exact covered.read claim before second read
    · rw [new] at read
      exact (Option.some.inj read).symm.le

theorem timed_ledger (state : NonceState) (i : Nat) (signed : SignedRequest)
    (here : state.claiming[i]? = some ⟨signed, none⟩) :
    gate.Steps state.ledger
      (ledger { state with claiming := state.claiming.set i ⟨signed, some (state.clock / 1000)⟩ }) := by
  refine Relation.ReflTransGen.single (Gate.Step.leave _ _ ?_)
  intro other member
  obtain ⟨claim, inside, same⟩ := List.mem_map.mp member
  rcases List.mem_or_eq_of_mem_set inside with before | new
  · exact List.mem_map.mpr ⟨claim, before, same⟩
  · exact List.mem_map.mpr ⟨_, List.mem_of_getElem? here, by rw [← same, new]⟩

theorem step_receive (web : Web) (config : AuthConfig) (state : NonceState) (inbound : ServerRequest) :
    state.step web config (.receive inbound) = state.admitted (preValidation web config state.clock inbound) := rfl

theorem step_ledger (web : Web) (config : AuthConfig) (state : NonceState) (event : NonceEvent)
    (covered : state.Covered) (spared : state.Spares event) :
    gate.Steps state.ledger (state.step web config event).ledger ∧ (state.step web config event).Covered := by
  cases event with
  | pass now =>
      have waited : gate.Step state.ledger (ledger { state with clock := max state.clock now }) :=
        Gate.Step.wait state.ledger (max state.clock now) (le_max_left _ _)
      exact ⟨Relation.ReflTransGen.single waited, state.passed_covered now covered⟩
  | receive inbound =>
      have near := claims_timely web config state.clock inbound
      rw [step_receive]
      exact ⟨state.admitted_ledger (preValidation web config state.clock inbound) near,
        state.admitted_covered (preValidation web config state.clock inbound) covered near⟩
  | claimNonce i =>
      simp only [step]
      split
      · rename_i signed here
        exact ⟨state.timed_ledger i signed here, state.timed_covered i signed here covered⟩
      · exact ⟨Relation.ReflTransGen.refl, covered⟩
  | transact i =>
      simp only [step]
      split
      · rename_i signed now here
        exact state.transaction_step i signed now here covered spared
      · exact ⟨Relation.ReflTransGen.refl, covered⟩
  | giveUp i => exact ⟨state.erased_ledger i, state.erased_covered i covered⟩

-- The lifetime of a nonce covers the whole window of its timestamp, and no more: a request verified in
-- the last second of the window may find its nonce purged when its claim comes a second later.
theorem control_plane_request_once (web : Web) (config : AuthConfig) (start : NonceState) (events : List NonceEvent)
    (idle : start.claiming = []) (unused : start.accepted = [])
    (spared : Along (step web config) Spares start events) :
    (runFrom (step web config) start events).accepted.Nodup := by
  have kept : ∀ state event, gate.Sealed (ledger state) ∧ Covered state → Spares state event →
      gate.Sealed (state.step web config event).ledger ∧ (state.step web config event).Covered := by
    intro state event ready spares
    have moved := state.step_ledger web config event ready.2 spares
    exact ⟨gate.steps_sealed _ _ moved.1 ready.1, moved.2⟩
  have initial : gate.Sealed start.ledger ∧ start.Covered := by
    refine ⟨gate.new_sealed start.ledger unused, ?_, ?_, ?_⟩
    · simp [idle]
    · simp [idle]
    · simp [unused]
  exact (along_keeps (step web config) Spares _ kept start events initial spared).1.once

def trusting : Web where
  url := fun _ => none
  sha256 := fun bytes => bytes
  ed25519Sign := fun _ _ => some []
  ed25519Verify := fun _ _ _ => some true

def guardedAgent : AuthConfig := ⟨"backend", some "AAAA", false⟩

def signedRequest (timestamp : String) : SignedRequest :=
  ⟨"backend", timestamp, "AAAAAAAAAAAAAAAA", String.ofList (List.replicate 86 'A')⟩

def request (timestamp : String) : NonceEvent :=
  let signed := signedRequest timestamp
  .receive ⟨"POST", "/tasks", [("x-vps-control-backend-id", signed.backendId),
    ("x-vps-control-timestamp", signed.timestamp), ("x-vps-control-nonce", signed.nonce),
    ("x-vps-control-signature", signed.signature)], "\x7b\x7d"⟩

def noNonces : NonceState := ⟨1760000000000, Table.empty, [], []⟩

-- The request comes again in the last second of its window, and the clock ticks before claimNonce reads it.
def replays (timestamp : String) (last next : Int) : List NonceEvent :=
  [request timestamp, .claimNonce 0, .transact 0, .pass last, request timestamp, .pass next, .claimNonce 0, .transact 0]

theorem control_plane_request_once_ahead :
    (runFrom (step trusting guardedAgent) noNonces (replays "1760000299" 1760000599999 1760000600000)).accepted =
        [signedRequest "1760000299"] ∧
      (runFrom (step trusting guardedAgent) noNonces
        (replays "1760000299" 1760000599999 1760000600000)).accepted.Nodup :=
  ⟨by decide +kernel, control_plane_request_once trusting guardedAgent noNonces
    (replays "1760000299" 1760000599999 1760000600000) rfl rfl (by decide +kernel)⟩

theorem control_plane_request_replayed :
    ¬ (runFrom (step trusting guardedAgent) noNonces
      (replays "1760000300" 1760000600999 1760000601000)).accepted.Nodup := by decide +kernel

end NonceState

end Vacps.Server
