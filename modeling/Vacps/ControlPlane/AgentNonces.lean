import Vacps.ControlPlane.RequestSignatures
import Vacps.Library.Ledger
import Vacps.Library.Runs
import Vacps.Library.Table

/- registry/agent-signature-repository.ts: the nonces of agent requests in D1, claimed after the
   signature was verified and purged by the cron. -/
set_option autoImplicit false

namespace Vacps.Signatures

open Library

structure AgentRequestNonce where
  backend_id : String
  nonce : String
  expires_at : String
deriving DecidableEq, Repr

def AgentRequestNonce.key (row : AgentRequestNonce) : String × String := (row.backend_id, row.nonce)

def SignedRequest.key (signed : SignedRequest) : String × String := (signed.backendId, signed.nonce)

-- A verified request on its way through claimNonce: the INSERT is bound once the clock has been read.
structure Claiming where
  signed : SignedRequest
  expires_at : Option String
deriving DecidableEq, Repr

structure NonceState where
  clock : Int
  agent_request_nonces : Table (String × String) AgentRequestNonce AgentRequestNonce.key
  claiming : List Claiming
  purging : List String
  accepted : List SignedRequest

inductive NonceEvent where
  | pass (now : Int)
  | verify (request : Request) (publicKey : String) (body : Option String)
  | claimNonce (i : Nat)
  | insert (i : Nat)
  | giveUp (i : Nat)
  | purgeExpired
  | delete (i : Nat)

namespace NonceState

def erased (state : NonceState) (i : Nat) : NonceState := { state with claiming := state.claiming.eraseIdx i }

def booked (state : NonceState) (signed : SignedRequest) (expires_at : String)
    (fresh : state.agent_request_nonces.find? signed.key = none) : NonceState :=
  { state with
    agent_request_nonces := state.agent_request_nonces.insert ⟨signed.backendId, signed.nonce, expires_at⟩ fresh
    accepted := signed :: state.accepted }

-- INSERT under the primary key; every failure of it is answered as a replay.
def insertNonce (state : NonceState) (i : Nat) (signed : SignedRequest) (expires_at : String) : NonceState :=
  if fresh : state.agent_request_nonces.find? signed.key = none then (state.booked signed expires_at fresh).erased i
  else state.erased i

def step (web : Web) (state : NonceState) : NonceEvent → NonceState
  | .pass now => { state with clock := max state.clock now }
  | .verify request publicKey body =>
      match signedHeaders state.clock request, verifyAgentRequestSignature web state.clock request publicKey body with
      | .ok signed, .ok _ => { state with claiming := state.claiming ++ [⟨signed, none⟩] }
      | _, _ => state
  | .claimNonce i =>
      match state.claiming[i]? with
      | some ⟨signed, none⟩ =>
          match timeClip (state.clock + 5 * 60 * 1000) with
          | none => state.erased i
          | some expiry => { state with claiming := state.claiming.set i ⟨signed, some (toISOString expiry)⟩ }
      | _ => state
  | .insert i =>
      match state.claiming[i]? with
      | some ⟨signed, some expires_at⟩ => state.insertNonce i signed expires_at
      | _ => state
  | .giveUp i => state.erased i
  | .purgeExpired =>
      match timeClip state.clock with
      | none => state
      | some now => { state with purging := state.purging ++ [toISOString now] }
  | .delete i =>
      match state.purging[i]? with
      | none => state
      | some now =>
          { state with
            agent_request_nonces := state.agent_request_nonces.delete fun row => decide (row.expires_at ≤ now)
            purging := state.purging.eraseIdx i }

-- Past the skew at this clock reading and so at every later one.
def outdated (signed : SignedRequest) (clock : Int) : Bool :=
  match safeInteger signed.timestamp with
  | none => true
  | some parsed => parsed + MAX_CLOCK_SKEW_SECONDS < clock / 1000

-- The DELETE takes the nonce of no accepted request that could still come back.
def Spares (state : NonceState) : NonceEvent → Prop
  | .delete i => ∀ now ∈ state.purging[i]?, ∀ signed ∈ state.accepted,
      ∀ row ∈ state.agent_request_nonces.find? signed.key, row.expires_at ≤ now →
        outdated signed state.clock = true ∧ ∀ claiming ∈ state.claiming, claiming.signed ≠ signed
  | _ => True

instance (state : NonceState) : (event : NonceEvent) → Decidable (state.Spares event)
  | .delete i => inferInstanceAs (Decidable (∀ now ∈ state.purging[i]?, ∀ signed ∈ state.accepted,
      ∀ row ∈ state.agent_request_nonces.find? signed.key, row.expires_at ≤ now →
        outdated signed state.clock = true ∧ ∀ claiming ∈ state.claiming, claiming.signed ≠ signed))
  | .pass _ | .verify _ _ _ | .claimNonce _ | .insert _ | .giveUp _ | .purgeExpired => inferInstanceAs (Decidable True)

def gate : Gate SignedRequest (String × String) where
  key := SignedRequest.key
  fresh := fun signed clock => timely signed.timestamp clock = true

def ledger (state : NonceState) : Ledger SignedRequest (String × String) where
  clock := state.clock
  held := fun key => state.agent_request_nonces.find? key ≠ none
  awaiting := state.claiming.map Claiming.signed
  accepted := state.accepted

theorem outdated_stale (signed : SignedRequest) (clock : Int) (past : outdated signed clock = true) :
    gate.Stale signed clock := by
  intro later after fresh
  simp only [gate, timely] at fresh
  simp only [outdated] at past
  cases read : safeInteger signed.timestamp with
  | none => simp [read] at fresh
  | some parsed =>
      simp only [read, decide_eq_true_eq, abs_le] at past fresh
      have order : clock / 1000 ≤ later / 1000 := Int.ediv_le_ediv (by decide) after
      omega

theorem erased_ledger (state : NonceState) (i : Nat) : gate.Steps state.ledger (state.erased i).ledger := by
  refine Relation.ReflTransGen.single (Gate.Step.leave _ _ ?_)
  intro other waiting
  obtain ⟨claiming, member, same⟩ := List.mem_map.mp waiting
  exact List.mem_map.mpr ⟨claiming, List.mem_of_mem_eraseIdx member, same⟩

theorem booked_ledger (state : NonceState) (signed : SignedRequest) (expires_at : String)
    (fresh : state.agent_request_nonces.find? signed.key = none)
    (waiting : signed ∈ state.claiming.map Claiming.signed) :
    gate.Steps state.ledger (state.booked signed expires_at fresh).ledger := by
  have found : ∀ key, (state.booked signed expires_at fresh).agent_request_nonces.find? key =
      if signed.key = key then some ⟨signed.backendId, signed.nonce, expires_at⟩
      else state.agent_request_nonces.find? key := Table.find_insert _ _ fresh
  refine Relation.ReflTransGen.single (Gate.Step.claim _ signed _ waiting (fun held => held fresh) ?_ ?_)
  · rw [found]
    simp [gate]
  · intro key held
    rw [found]
    split
    · simp
    · exact held

theorem insert_ledger (state : NonceState) (i : Nat) (signed : SignedRequest) (expires_at : String)
    (waiting : signed ∈ state.claiming.map Claiming.signed) :
    gate.Steps state.ledger (state.insertNonce i signed expires_at).ledger := by
  by_cases fresh : state.agent_request_nonces.find? signed.key = none
  · have result : state.insertNonce i signed expires_at = (state.booked signed expires_at fresh).erased i := dif_pos fresh
    rw [result]
    exact (state.booked_ledger signed expires_at fresh waiting).trans ((state.booked signed expires_at fresh).erased_ledger i)
  · have result : state.insertNonce i signed expires_at = state.erased i := dif_neg fresh
    rw [result]
    exact state.erased_ledger i

theorem delete_ledger (state : NonceState) (i : Nat) (now : String) (reads : state.purging[i]? = some now)
    (spared : state.Spares (.delete i)) (table : Table (String × String) AgentRequestNonce AgentRequestNonce.key)
    (deleted : table = state.agent_request_nonces.delete fun row => decide (row.expires_at ≤ now)) :
    gate.Steps state.ledger { state.ledger with held := fun key => table.find? key ≠ none } := by
  refine Relation.ReflTransGen.single (Gate.Step.forget _ _ ?_)
  intro signed accepted held lost
  cases stored : state.agent_request_nonces.find? signed.key with
  | none => exact absurd stored held
  | some row =>
      have gone : row.expires_at ≤ now := by
        by_contra stays
        have member : row ∈ table.rows := by
          rw [deleted]
          exact List.mem_filter.mpr ⟨Table.find_mem _ _ _ stored, by simpa using stays⟩
        have same : row.key = signed.key := Table.find_key _ _ _ stored
        have again := table.find_of_mem row member
        rw [same] at again
        exact lost (by simp [gate, again])
      obtain ⟨past, absent⟩ := spared now reads signed accepted row stored gone
      refine ⟨?_, outdated_stale signed state.clock past⟩
      intro waiting
      obtain ⟨claiming, member, same⟩ := List.mem_map.mp waiting
      exact absent claiming member same

theorem step_ledger (web : Web) (state : NonceState) (event : NonceEvent) (spared : state.Spares event) :
    gate.Steps state.ledger (state.step web event).ledger := by
  cases event with
  | pass now => exact Relation.ReflTransGen.single (Gate.Step.wait state.ledger (max state.clock now) (le_max_left _ _))
  | verify request publicKey body =>
      simp only [step]
      split
      · rename_i signed identity read verified
        refine Relation.ReflTransGen.single (Gate.Step.enter state.ledger signed
          (signed_headers_timely state.clock request signed read) _ ?_)
        intro other member
        simp only [List.map_append, List.map_cons, List.map_nil, List.mem_append, List.mem_singleton] at member
        exact member.symm
      · exact Relation.ReflTransGen.refl
  | claimNonce i =>
      simp only [step]
      split
      · rename_i signed waiting
        split
        · exact state.erased_ledger i
        · refine Relation.ReflTransGen.single (Gate.Step.leave _ _ ?_)
          intro other member
          obtain ⟨claiming, inside, same⟩ := List.mem_map.mp member
          rcases List.mem_or_eq_of_mem_set inside with before | new
          · exact List.mem_map.mpr ⟨claiming, before, same⟩
          · exact List.mem_map.mpr ⟨_, List.mem_of_getElem? waiting, by rw [← same, new]⟩
      · exact Relation.ReflTransGen.refl
  | insert i =>
      simp only [step]
      split
      · rename_i signed expires_at waiting
        exact state.insert_ledger i signed expires_at (List.mem_map.mpr ⟨_, List.mem_of_getElem? waiting, rfl⟩)
      · exact Relation.ReflTransGen.refl
  | giveUp i => exact state.erased_ledger i
  | purgeExpired =>
      simp only [step]
      split <;> exact Relation.ReflTransGen.refl
  | delete i =>
      simp only [step]
      split
      · exact Relation.ReflTransGen.refl
      · rename_i now reads
        exact state.delete_ledger i now reads spared _ rfl

-- A nonce must outlast every moment at which its request could verify again, and every request that
-- has verified already. The purge takes it five minutes after the claim whatever the timestamp says.
theorem agent_request_once (web : Web) (start : NonceState) (events : List NonceEvent) (unused : start.accepted = [])
    (spared : Along (step web) Spares start events) : (runFrom (step web) start events).accepted.Nodup := by
  have kept : ∀ state event, gate.Sealed state.ledger → Spares state event → gate.Sealed (state.step web event).ledger :=
    fun state event ready spares => gate.steps_sealed _ _ (state.step_ledger web event spares) ready
  exact (along_keeps (step web) Spares (fun state => gate.Sealed state.ledger) kept start events
    (gate.new_sealed start.ledger unused) spared).once

-- A platform on which every signature is genuine, and one telemetry request in it.
def trusting : Web where
  url := fun _ => some ⟨"/api/backends/telemetry", none, by decide, by decide, by simp⟩
  sha256 := fun bytes => bytes
  ed25519Sign := fun _ _ => some []
  ed25519Verify := fun _ _ _ => some true

def signedRequest (timestamp : String) : SignedRequest :=
  ⟨"backend", timestamp, "AAAAAAAAAAAAAAAA", String.ofList (List.replicate 86 'A')⟩

def telemetry (timestamp : String) : NonceEvent :=
  let signed := signedRequest timestamp
  .verify ⟨"POST", "https://vacps.invalid/api/backends/telemetry",
    [("x-vacps-id", signed.backendId), ("x-vacps-timestamp", signed.timestamp), ("x-vacps-nonce", signed.nonce),
      ("x-vacps-signature", signed.signature)], "\x7b\x7d"⟩ "AAAA" none

def noNonces : NonceState := ⟨1760000000000, Table.empty, [], [], []⟩

-- The request comes again while its nonce is held and after the cron has dropped it.
def replays (timestamp : String) : List NonceEvent :=
  [telemetry timestamp, .claimNonce 0, .insert 0, telemetry timestamp, .claimNonce 0, .insert 0, .pass 1760000300000,
    .purgeExpired, .delete 0, telemetry timestamp, .claimNonce 0, .insert 0]

theorem agent_request_once_behind :
    (runFrom (step trusting) noNonces (replays "1759999900")).accepted = [signedRequest "1759999900"] ∧
      (runFrom (step trusting) noNonces (replays "1759999900")).accepted.Nodup :=
  ⟨by decide +kernel, agent_request_once trusting noNonces (replays "1759999900") rfl (by decide +kernel)⟩

-- Its clock is five minutes ahead, and so its timestamp outlives its nonce by five minutes.
theorem agent_request_replayed :
    ¬ (runFrom (step trusting) noNonces (replays "1760000300")).accepted.Nodup := by decide +kernel

end NonceState

end Vacps.Signatures
