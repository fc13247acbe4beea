import Vacps.ControlPlane.EnrolledKeys

/- No key enters the registrations but by a spent token or by the hand of a key that is in them, and no registration
   ever changes the key it has: over every run of the requests, with every failure of D1 in it. Registrations of old
   installations have no key yet. -/
set_option autoImplicit false

namespace Vacps.Enrollment

open Library
open Signatures (SignatureError sha256Base64Url)

-- One registration before and after: it is the same agent's, and a key it had it has.
def Same (first second : RegistrationRow) : Prop :=
  first.id = second.id ∧ first.backend_id = second.backend_id ∧ ∀ key ∈ truthy first.public_key, second.public_key = some key

theorem same_refl (row : RegistrationRow) : Same row row :=
  ⟨rfl, rfl, fun _ member => (Option.filter_eq_some_iff.mp member).1⟩

-- A key of a backend that was there first, that a token was spent for, or that a vouched key signed for.
inductive Vouched (first : List RegistrationRow) (grants : Registering → Authority → Prop) (backendId : String) : String → Prop where
  | first (row : RegistrationRow) (key : String) (member : row ∈ first) (named : row.backend_id = backendId)
      (keyed : row.public_key = some key) : Vouched first grants backendId key
  | token (asked : Registering) (token_hash : String) (granted : grants asked (.token token_hash))
      (named : asked.input.backendId = backendId) : Vouched first grants backendId asked.input.publicKey
  | signed (asked : Registering) (key : String) (granted : grants asked (.key key)) (named : asked.input.backendId = backendId)
      (vouched : Vouched first grants backendId key) : Vouched first grants backendId asked.input.publicKey

theorem vouched_mono (first : List RegistrationRow) (grants more : Registering → Authority → Prop)
    (kept : ∀ asked authority, grants asked authority → more asked authority) (backendId key : String)
    (vouched : Vouched first grants backendId key) : Vouched first more backendId key := by
  induction vouched with
  | first row key member named keyed => exact .first row key member named keyed
  | token asked token_hash granted named => exact .token asked token_hash (kept _ _ granted) named
  | signed asked key granted named _ ih => exact .signed asked key (kept _ _ granted) named ih

def Written (first : List RegistrationRow) (grants : Registering → Authority → Prop) (backendId key : String) : Prop :=
  (∃ old ∈ first, old.backend_id = backendId ∧ old.public_key = some key) ∨
    ∃ asked authority, grants asked authority ∧ asked.input.backendId = backendId ∧ asked.input.publicKey = key

theorem written_mono (first : List RegistrationRow) (grants more : Registering → Authority → Prop)
    (kept : ∀ asked authority, grants asked authority → more asked authority) (backendId key : String)
    (written : Written first grants backendId key) : Written first more backendId key :=
  written.imp_right fun ⟨asked, authority, granted, rest⟩ => ⟨asked, authority, kept asked authority granted, rest⟩

def grants (places : List EnrollPlace) (asked : Registering) (authority : Authority) : Prop :=
  ∃ place ∈ places, place.call = .register asked ∧ place.authority = some authority

section invariant

variable (web : Web) (first : List RegistrationRow)

-- What a request has shown is so.
structure Fair (state : EnrollmentState) (places : List EnrollPlace) (place : EnrollPlace) : Prop where
  seen : ∀ asked, place.call = .register asked → ∀ key ∈ place.seen, Vouched first (grants places) asked.input.backendId key
  proved : ∀ asked, place.call = .register asked → ∀ key ∈ place.proved, ∃ now, signedWith web asked now key = true
  token : ∀ token_hash, place.authority = some (.token token_hash) → token_hash ∈ state.issued ∧
    (∀ row ∈ state.registration_tokens.rows, row.token_hash = token_hash → row.consumed_at ≠ none) ∧
    ∃ asked, place.call = .register asked ∧ asked.registrationToken.map (sha256Base64Url web) = some token_hash ∧
      ∃ now, signedWith web asked now asked.input.publicKey = true
  key : ∀ key, place.authority = some (.key key) → ∃ asked, place.call = .register asked ∧
    Vouched first (grants places) asked.input.backendId key ∧ ∃ now, signedWith web asked now key = true
  existing : ∀ row ∈ place.existing, ∃ entry ∈ state.inserted, Same entry row

structure Kept (state : EnrollmentState) (places : List EnrollPlace) : Prop where
  known : ∀ row ∈ state.backend_registrations.rows, ∃ entry ∈ state.inserted, Same entry row
  ids : (state.inserted.map RegistrationRow.id).Nodup
  keyed : ∀ entry ∈ state.inserted, entry ∈ first ∨ truthy entry.public_key ≠ none
  written : ∀ row ∈ state.backend_registrations.rows, ∀ key ∈ row.public_key, Written first (grants places) row.backend_id key
  listed : ∀ row ∈ state.registration_tokens.rows, row.token_hash ∈ state.issued
  fair : ∀ place ∈ places, Fair web first state places place
  single : ∀ (i j : Nat) (one other : EnrollPlace) (token_hash : String), places[i]? = some one → places[j]? = some other →
    one.authority = some (.token token_hash) → other.authority = some (.token token_hash) → i = j

-- Every key there is is vouched for.
theorem written_vouched (state : EnrollmentState) (places : List EnrollPlace) (kept : Kept web first state places)
    (backendId key : String) (written : Written first (grants places) backendId key) :
    Vouched first (grants places) backendId key := by
  rcases written with ⟨old, member, named, keyed⟩ | ⟨asked, authority, granted, named, same⟩
  · exact .first old key member named keyed
  · rw [← same]
    cases authority with
    | token token_hash => exact .token asked token_hash granted named
    | key other =>
        obtain ⟨place, inside, called, held⟩ := granted
        obtain ⟨asked', called', vouched, _⟩ := (kept.fair place inside).key other held
        have equal : asked' = asked := by
          have calls := called'.symm.trans called
          exact EnrollCall.register.inj calls
        rw [equal, named] at vouched
        exact .signed asked other ⟨place, inside, called, held⟩ named vouched

-- What two places of the same request have been granted.
theorem grants_set (places : List EnrollPlace) (i : Nat) (place there : EnrollPlace) (here : places[i]? = some place)
    (call_ : there.call = place.call) (held : ∀ authority ∈ place.authority, there.authority = some authority)
    (asked : Registering) (authority : Authority) (granted : grants places asked authority) :
    grants (places.set i there) asked authority := by
  obtain ⟨other, member, called, has⟩ := granted
  obtain ⟨j, located⟩ := List.mem_iff_getElem?.mp member
  by_cases same : j = i
  · subst same
    rw [here] at located
    cases located
    exact ⟨there, List.mem_iff_getElem?.mpr ⟨j, (located_set places j j place there there here).mpr (Or.inl ⟨rfl, rfl⟩)⟩,
      call_.trans called, held authority has⟩
  · exact ⟨other, List.mem_iff_getElem?.mpr ⟨j, (located_set places i j place there other here).mpr (Or.inr ⟨same, located⟩)⟩,
      called, has⟩

theorem grants_append (places : List EnrollPlace) (last : EnrollPlace) (asked : Registering) (authority : Authority)
    (granted : grants places asked authority) : grants (places ++ [last]) asked authority := by
  obtain ⟨place, member, rest⟩ := granted
  exact ⟨place, List.mem_append_left _ member, rest⟩

theorem fair_mono (state : EnrollmentState) (places more : List EnrollPlace) (place : EnrollPlace)
    (kept : ∀ asked authority, grants places asked authority → grants more asked authority)
    (fair : Fair web first state places place) : Fair web first state more place where
  seen asked called key member := vouched_mono first _ _ kept _ _ (fair.seen asked called key member)
  proved := fair.proved
  token := fair.token
  key key held := by
    obtain ⟨asked, called, vouched, signed⟩ := fair.key key held
    exact ⟨asked, called, vouched_mono first _ _ kept _ _ vouched, signed⟩
  existing := fair.existing

-- A new request has shown nothing.
theorem kept_start (state : EnrollmentState) (places : List EnrollPlace) (asked : EnrollCall) (kept : Kept web first state places) :
    Kept web first state (places ++ [asked.entry]) where
  known := kept.known
  ids := kept.ids
  keyed := kept.keyed
  written row member key has :=
    written_mono first _ _ (fun asked' authority => grants_append places _ asked' authority) _ _ (kept.written row member key has)
  listed := kept.listed
  fair place member := by
    rcases List.mem_append.mp member with old | new
    · exact fair_mono web first state places _ place (fun asked' authority => grants_append places _ asked' authority) (kept.fair place old)
    · rw [List.mem_singleton] at new
      subst new
      exact ⟨fun _ _ key none_ => (by cases none_), fun _ _ key none_ => (by cases none_), fun _ none_ => (by cases none_),
        fun _ none_ => (by cases none_), fun row none_ => (by cases none_)⟩
  single i j one other token_hash here there held held' := by
    rcases located_append places i _ one here with rfl | old
    · cases held
    · rcases located_append places j _ other there with rfl | old'
      · cases held'
      · exact kept.single i j one other token_hash old old' held held'

end invariant

-- randomUUID and getRandomValues never come up with what they have before.
def Fresh (op : EnrollOp) (state : EnrollmentState) : Prop :=
  match op with
  | .insertToken row => row.token_hash ∉ state.issued
  | .insertRegistration row => row.id ∉ state.inserted.map RegistrationRow.id
  | _ => True

-- The key an UPDATE writes over a row.
def Rekeys (op : EnrollOp) (row : RegistrationRow) (key : String) : Prop :=
  match op with
  | .refresh _ id input _ _ _ => row.id = id ∧ input.publicKey = key
  | _ => False

-- How the tables may change in one statement.
structure Advances (op : EnrollOp) (state base : EnrollmentState) : Prop where
  rows : ∀ row ∈ base.backend_registrations.rows,
    (∃ old ∈ state.backend_registrations.rows, old.id = row.id ∧ old.backend_id = row.backend_id ∧
      (row.public_key = old.public_key ∨ ∃ key, Rekeys op old key ∧ row.public_key = some key)) ∨
      (op = .insertRegistration row ∧ row ∈ base.inserted)
  inserted : ∀ entry ∈ state.inserted, entry ∈ base.inserted
  tokens : ∀ row ∈ base.registration_tokens.rows,
    (∃ old ∈ state.registration_tokens.rows, old.token_hash = row.token_hash ∧ (row.consumed_at = none → old.consumed_at = none)) ∨
      (row.token_hash ∉ state.issued ∧ row.token_hash ∈ base.issued)
  issued : ∀ token_hash ∈ state.issued, token_hash ∈ base.issued

theorem advances_same (op : EnrollOp) (state base : EnrollmentState) (rows : base.backend_registrations = state.backend_registrations)
    (inserted : base.inserted = state.inserted) (tokens : base.registration_tokens = state.registration_tokens)
    (issued : base.issued = state.issued) : Advances op state base where
  rows row member := Or.inl ⟨row, rows ▸ member, rfl, rfl, Or.inl rfl⟩
  inserted _ member := inserted ▸ member
  tokens row member := Or.inl ⟨row, tokens ▸ member, rfl, fun unused => unused⟩
  issued _ member := issued ▸ member

theorem updated_advances (op : EnrollOp) (state : EnrollmentState) (id : String) (change : RegistrationRow → RegistrationRow)
    (keeps : ∀ row, (change row).backend_id = row.backend_id) (stays : ∀ row, (change row).id = row.id)
    (keyed : ∀ row : RegistrationRow, row.id = id →
      (change row).public_key = row.public_key ∨ ∃ key, Rekeys op row key ∧ (change row).public_key = some key) :
    Advances op state (state.updated id change keeps) where
  rows row member := by
    obtain ⟨old, inside, rfl⟩ := List.mem_map.mp member
    refine Or.inl ⟨old, inside, ?_⟩
    by_cases selected : old.id = id
    · rw [if_pos (by simpa using selected)]
      exact ⟨(stays old).symm, (keeps old).symm, keyed old selected⟩
    · rw [if_neg (by simpa using selected)]
      exact ⟨rfl, rfl, Or.inl rfl⟩
  inserted entry member := member
  tokens row member := Or.inl ⟨row, member, rfl, fun unused => unused⟩
  issued token_hash member := member

theorem perform_advances (op : EnrollOp) (state : EnrollmentState) (fresh : Fresh op state) :
    Advances op state (op.perform state).2 := by
  cases op with
  | insertToken row =>
      simp only [EnrollOp.perform]
      split
      · refine ⟨fun row member => Or.inl ⟨row, member, rfl, rfl, Or.inl rfl⟩, fun entry member => member, ?_,
          fun _ member => List.mem_cons_of_mem _ member⟩
        intro other member
        rcases List.mem_append.mp member with old | new
        · exact Or.inl ⟨other, old, rfl, fun unused => unused⟩
        · rw [List.mem_singleton] at new
          subst new
          exact Or.inr ⟨fresh, List.mem_cons_self⟩
      · exact advances_same _ state state rfl rfl rfl rfl
  | consumeToken token_hash now =>
      refine ⟨fun row member => Or.inl ⟨row, member, rfl, rfl, Or.inl rfl⟩, fun entry member => member, ?_, fun _ member => member⟩
      intro row member
      obtain ⟨old, inside, rfl⟩ := List.mem_map.mp member
      refine Or.inl ⟨old, inside, ?_, ?_⟩
      · split <;> rfl
      · split
        · intro none_
          cases none_
        · exact fun unused => unused
  | deleteExpiredTokens now =>
      refine ⟨fun row member => Or.inl ⟨row, member, rfl, rfl, Or.inl rfl⟩, fun entry member => member, ?_, fun _ member => member⟩
      intro row member
      exact Or.inl ⟨row, List.mem_of_mem_filter member, rfl, fun unused => unused⟩
  | insertRegistration row =>
      simp only [EnrollOp.perform]
      split
      · refine ⟨?_, fun _ member => List.mem_cons_of_mem _ member, fun row member => Or.inl ⟨row, member, rfl, fun unused => unused⟩,
          fun _ member => member⟩
        intro other member
        rcases List.mem_append.mp member with old | new
        · exact Or.inl ⟨other, old, rfl, rfl, Or.inl rfl⟩
        · rw [List.mem_singleton] at new
          subst new
          exact Or.inr ⟨rfl, List.mem_cons_self⟩
      · exact advances_same _ state state rfl rfl rfl rfl
  | refresh again id input network ips now =>
      refine updated_advances _ state id _ _ (fun row => (refreshed_keeps again input network ips now row).2.1) ?_
      intro row named
      exact Or.inr ⟨input.publicKey, ⟨named, rfl⟩, (refreshed_keeps again input network ips now row).2.2⟩
  | approve id now => exact updated_advances _ state id _ _ (fun _ => rfl) fun row _ => Or.inl rfl
  | reject id reason now => exact updated_advances _ state id _ _ (fun _ => rfl) fun row _ => Or.inl rfl
  | deleteRegistration backend_id =>
      exact ⟨fun row member => Or.inl ⟨row, List.mem_of_mem_filter member, rfl, rfl, Or.inl rfl⟩, fun entry member => member,
        fun row member => Or.inl ⟨row, member, rfl, fun unused => unused⟩, fun _ member => member⟩
  | insertNonce row =>
      simp only [EnrollOp.perform]
      split <;> exact advances_same _ state _ rfl rfl rfl rfl
  | insertBackend row =>
      simp only [EnrollOp.perform]
      split <;> exact advances_same _ state _ rfl rfl rfl rfl
  | _ => exact advances_same _ state _ rfl rfl rfl rfl

section invariant

variable (web : Web) (first : List RegistrationRow)

-- A statement may write a key where the request that makes it has been let in, and over no other key.
theorem kept_advances (op : EnrollOp) (state base : EnrollmentState) (places : List EnrollPlace) (kept : Kept web first state places)
    (advances : Advances op state base) (ids : (base.inserted.map RegistrationRow.id).Nodup)
    (rekeys : ∀ row ∈ state.backend_registrations.rows, ∀ key, Rekeys op row key → Written first (grants places) row.backend_id key ∧
      ∀ entry ∈ state.inserted, Same entry row → ∀ old ∈ truthy entry.public_key, key = old)
    (new : ∀ entry ∈ base.inserted, entry ∈ state.inserted ∨ truthy entry.public_key ≠ none)
    (puts : ∀ row, op = .insertRegistration row → ∀ key ∈ row.public_key, Written first (grants places) row.backend_id key) :
    Kept web first base places where
  known row member := by
    rcases advances.rows row member with ⟨old, inside, id_, backend, keyed⟩ | ⟨_, entry⟩
    · obtain ⟨entry, put, equal⟩ := kept.known old inside
      refine ⟨entry, advances.inserted entry put, equal.1.trans id_, equal.2.1.trans backend, ?_⟩
      intro key held
      rcases keyed with same | ⟨other, rekeyed, written⟩
      · exact same.trans (equal.2.2 key held)
      · rw [written, (rekeys old inside other rekeyed).2 entry put equal key held]
    · exact ⟨row, entry, same_refl row⟩
  ids := ids
  keyed entry member := (new entry member).elim (kept.keyed entry) Or.inr
  written row member key held := by
    rcases advances.rows row member with ⟨old, inside, _, backend, keyed⟩ | ⟨inserts, _⟩
    · rcases keyed with same | ⟨other, rekeyed, written⟩
      · exact backend ▸ kept.written old inside key (same ▸ held)
      · have equal : other = key := Option.some_inj.mp (written.symm.trans held)
        exact backend ▸ equal ▸ (rekeys old inside other rekeyed).1
    · exact puts row inserts key held
  listed row member := by
    rcases advances.tokens row member with ⟨old, inside, same, _⟩ | added
    · exact advances.issued _ (same ▸ kept.listed old inside)
    · exact added.2
  fair place member := by
    have fair := kept.fair place member
    refine ⟨fair.seen, fair.proved, ?_, fair.key, ?_⟩
    · intro token_hash held
      obtain ⟨issued, consumed, rest⟩ := fair.token token_hash held
      refine ⟨advances.issued _ issued, ?_, rest⟩
      intro row inside named unused
      rcases advances.tokens row inside with ⟨old, before, same, earlier⟩ | ⟨unknown, _⟩
      · exact consumed old before (same.trans named) (earlier unused)
      · exact unknown (named ▸ issued)
    · intro row read
      obtain ⟨entry, put, same⟩ := fair.existing row read
      exact ⟨entry, advances.inserted entry put, same⟩
  single := kept.single

-- One request goes on to another place; the tables stay.
theorem kept_moved (state : EnrollmentState) (places : List EnrollPlace) (i : Nat) (place there : EnrollPlace)
    (here : places[i]? = some place) (kept : Kept web first state places) (call_ : there.call = place.call)
    (held : ∀ authority ∈ place.authority, there.authority = some authority)
    (fair : Fair web first state (places.set i there) there)
    (single : ∀ token_hash, there.authority = some (.token token_hash) → place.authority ≠ some (.token token_hash) →
      ∀ other ∈ places, other.authority ≠ some (.token token_hash)) : Kept web first state (places.set i there) where
  known := kept.known
  ids := kept.ids
  keyed := kept.keyed
  written row member key has :=
    written_mono first _ _ (grants_set places i place there here call_ held) _ _ (kept.written row member key has)
  listed := kept.listed
  fair other member := by
    rcases List.mem_or_eq_of_mem_set member with old | rfl
    · exact fair_mono web first state places _ other (grants_set places i place there here call_ held) (kept.fair other old)
    · exact fair
  single j k one other token_hash located located' has has' := by
    rcases (located_set places i j place there one here).mp located with ⟨rfl, rfl⟩ | ⟨different, old⟩
    · rcases (located_set places j k place one other here).mp located' with ⟨rfl, rfl⟩ | ⟨different', old'⟩
      · rfl
      · by_cases before : place.authority = some (.token token_hash)
        · exact kept.single j k place other token_hash here old' before has'
        · exact absurd has' (single token_hash has before other (List.mem_of_getElem? old'))
    · rcases (located_set places i k place there other here).mp located' with ⟨rfl, rfl⟩ | ⟨different', old'⟩
      · by_cases before : place.authority = some (.token token_hash)
        · exact kept.single j k one place token_hash old here has before
        · exact absurd has (single token_hash has' before one (List.mem_of_getElem? old))
      · exact kept.single j k one other token_hash old old' has has'

theorem grant_held (place : EnrollPlace) (new : Authority) (authority : Authority)
    (held : (place.grant new).authority = some authority) :
    place.authority = some authority ∨ (place.authority = none ∧ authority = new) := by
  rw [EnrollPlace.grant] at held
  cases old : place.authority with
  | none =>
      rw [old] at held
      exact Or.inr ⟨rfl, (Option.some_inj.mp held).symm⟩
  | some other =>
      rw [old] at held
      exact Or.inl held

section place

variable (state : EnrollmentState) (places : List EnrollPlace) (place : EnrollPlace) (asked : Registering)
  (named : place.call = .register asked) (fair : Fair web first state places place)

include named fair

theorem fair_granted_token (token_hash : String) (issued : token_hash ∈ state.issued)
    (consumed : ∀ row ∈ state.registration_tokens.rows, row.token_hash = token_hash → row.consumed_at ≠ none)
    (presented : asked.registrationToken.map (sha256Base64Url web) = some token_hash)
    (signed : ∃ now, signedWith web asked now asked.input.publicKey = true) :
    Fair web first state places (place.grant (.token token_hash)) where
  seen := fair.seen
  proved := fair.proved
  token other held := by
    rcases grant_held place _ _ held with old | ⟨_, same⟩
    · exact fair.token other old
    · cases same
      exact ⟨issued, consumed, asked, named, presented, signed⟩
  key other held := by
    rcases grant_held place _ _ held with old | ⟨_, same⟩
    · exact fair.key other old
    · cases same
  existing := fair.existing

theorem fair_granted_key (key : String) (vouched : Vouched first (grants places) asked.input.backendId key)
    (signed : ∃ now, signedWith web asked now key = true) : Fair web first state places (place.grant (.key key)) where
  seen := fair.seen
  proved := fair.proved
  token other held := by
    rcases grant_held place _ _ held with old | ⟨_, same⟩
    · exact fair.token other old
    · cases same
  key other held := by
    rcases grant_held place _ _ held with old | ⟨_, same⟩
    · exact fair.key other old
    · cases same
      exact ⟨asked, named, vouched, signed⟩
  existing := fair.existing

theorem fair_clocked (now : Int) : Fair web first state places (place.clocked web asked now) := by
  have calls : ∀ other, place.call = .register other → other = asked := by
    intro other called
    exact EnrollCall.register.inj (called.symm.trans named)
  simp only [EnrollPlace.clocked]
  cases verified : (if asked.registrationToken.isSome then some asked.input.publicKey else place.seen).filter (signedWith web asked now) with
  | none => exact fair
  | some key =>
      have signed : signedWith web asked now key = true := (Option.filter_eq_some_iff.mp verified).2
      have shown : Fair web first state places { place with proved := some key } := by
        refine ⟨fair.seen, ?_, fair.token, fair.key, fair.existing⟩
        intro other called read same
        rw [calls other called, ← Option.some_inj.mp same]
        exact ⟨now, signed⟩
      simp only [EnrollPlace.prove]
      split
      · rename_i bare
        refine fair_granted_key web first state places { place with proved := some key } asked named shown key ?_ ⟨now, signed⟩
        have none_ : asked.registrationToken.isSome = false := by
          rw [Option.isNone_iff_eq_none] at bare
          rw [bare]
          rfl
        rw [none_] at verified
        exact fair.seen asked named key (Option.filter_eq_some_iff.mp verified).1
      · exact shown

theorem fair_looked (found : Option String) (vouched : ∀ key ∈ found, Vouched first (grants places) asked.input.backendId key) :
    Fair web first state places (place.looked asked found) := by
  have calls : ∀ other, place.call = .register other → other = asked := by
    intro other called
    exact EnrollCall.register.inj (called.symm.trans named)
  have seeing : Fair web first state places { place with seen := found } := by
    refine ⟨?_, fair.proved, fair.token, fair.key, fair.existing⟩
    intro other called key read
    rw [calls other called]
    exact vouched key read
  simp only [EnrollPlace.looked]
  split
  · rename_i enough
    exact fair_granted_key web first state places { place with seen := found } asked named seeing asked.input.publicKey
      (vouched _ enough.2.1) (fair.proved asked named _ enough.2.2)
  · exact seeing

end place

end invariant

-- After a statement the tables are as it left them, or as they were.
theorem exec_cases (op : EnrollOp) (state : EnrollmentState) :
    ((op.exec state).1 = .error .platform ∧ (op.exec state).2 = { state with performed := state.performed + 1 }) ∨
      (op.exec state).2 = { (op.perform state).2 with performed := state.performed + 1 } := by
  unfold EnrollOp.exec
  cases op.fault state with
  | none => exact Or.inr rfl
  | refused => exact Or.inl ⟨rfl, rfl⟩
  | lost => exact Or.inr rfl

theorem inserted_same (op : EnrollOp) (state : EnrollmentState) (other : ∀ row, op ≠ .insertRegistration row) :
    (op.perform state).2.inserted = state.inserted := by
  cases op with
  | insertRegistration row => exact absurd rfl (other row)
  | insertToken row =>
      simp only [EnrollOp.perform]
      split <;> rfl
  | insertNonce row =>
      simp only [EnrollOp.perform]
      split <;> rfl
  | insertBackend row =>
      simp only [EnrollOp.perform]
      split <;> rfl
  | _ => rfl

section step

variable (web : Web) (first : List RegistrationRow)

-- Two rows of one id come from the same INSERT.
theorem one_entry (state : EnrollmentState) (places : List EnrollPlace) (kept : Kept web first state places) (row other : RegistrationRow)
    (one two : RegistrationRow) (put : one ∈ state.inserted) (put' : two ∈ state.inserted) (alike : Same one row)
    (alike' : Same two other) (same : row.id = other.id) : one = two :=
  List.inj_on_of_nodup_map kept.ids put put' ((alike.1.trans same).trans alike'.1.symm)

theorem kept_performed (state : EnrollmentState) (places : List EnrollPlace) (performed : Nat) (kept : Kept web first state places) :
    Kept web first { state with performed := performed } places where
  known := kept.known
  ids := kept.ids
  keyed := kept.keyed
  written := kept.written
  listed := kept.listed
  fair place member :=
    ⟨(kept.fair place member).seen, (kept.fair place member).proved, (kept.fair place member).token,
      (kept.fair place member).key, (kept.fair place member).existing⟩
  single := kept.single

variable (state : EnrollmentState) (places : List EnrollPlace) (i : Nat) (place there : EnrollPlace) (asked : EnrollCall) (op : EnrollOp)
  (here : places[i]? = some place) (kept : Kept web first state places) (named : place.call = asked)
  (moved : enrollNext web asked place op state = some there) (fresh : Fresh op state)

include here kept named moved fresh

-- What an UPDATE writes over a registration its request has been let in with, and it is the key that was there.
theorem rekeys_granted (row : RegistrationRow) (member : row ∈ state.backend_registrations.rows) (key : String)
    (rekeyed : Rekeys op row key) : Written first (grants places) row.backend_id key ∧
      ∀ entry ∈ state.inserted, Same entry row → ∀ old ∈ truthy entry.public_key, key = old := by
  cases op with
  | refresh again id input network ips now =>
      cases asked with
      | register asked =>
          simp only [enrollNext, registering] at moved
          split at moved
          · rename_i granted
            obtain ⟨key_, held, existing, read, id_, backend, equal⟩ := granted
            obtain ⟨authority, has⟩ := Option.isSome_iff_exists.mp held
            obtain ⟨named_, same⟩ := rekeyed
            have inside : place ∈ places := List.mem_of_getElem? here
            obtain ⟨put, put_, alike⟩ := (kept.fair place inside).existing existing read
            have entries := fun (entry : RegistrationRow) (there : entry ∈ state.inserted) (kin : Same entry row) =>
              one_entry web first state places kept row existing entry put there put_ kin alike (named_.trans id_.symm)
            obtain ⟨entry, there, kin⟩ := kept.known row member
            have one := entries entry there kin
            refine ⟨Or.inr ⟨asked, authority, ⟨place, inside, named, has⟩, ?_, key_.symm.trans same⟩, ?_⟩
            · rw [← backend, ← alike.2.1, ← one, kin.2.1]
            · intro entry there kin old was
              rw [entries entry there kin] at was
              obtain ⟨_, some_⟩ := Option.filter_eq_some_iff.mp was
              have known : truthy existing.public_key = some old := by
                rw [alike.2.2 old was, truthy, Option.filter_some, if_pos some_]
              rw [← same, key_, equal old known]
          · cases moved
      | _ => cases moved
  | _ => cases rekeyed

omit kept in
-- What an INSERT puts in its request has been let in with.
theorem puts_granted (row : RegistrationRow) (inserts : op = .insertRegistration row) :
    truthy row.public_key ≠ none ∧ ∀ key ∈ row.public_key, Written first (grants places) row.backend_id key := by
  subst inserts
  cases asked with
  | register asked =>
      simp only [enrollNext, registering] at moved
      split at moved
      · rename_i granted
        obtain ⟨backend, key, held⟩ := granted
        obtain ⟨authority, has⟩ := Option.isSome_iff_exists.mp held
        refine ⟨?_, ?_⟩
        · have some_ : asked.input.publicKey ≠ "" := by
            intro empty
            have form := asked.input.key_form
            rw [empty] at form
            exact absurd form (by decide)
          rw [key]
          simp [truthy, some_]
        · intro other has_
          exact Or.inr ⟨asked, authority, ⟨place, List.mem_of_getElem? here, named, has⟩, backend.symm,
            Option.some_inj.mp (key.symm.trans has_)⟩
      · cases moved
  | _ => cases moved

-- The statement leaves the tables in order; who made it has been granted what it needs.
theorem tables_step : Kept web first (op.exec state).2 places := by
  have rekeys := rekeys_granted web first state places i place there asked op here kept named moved fresh
  have puts := puts_granted web first state places i place there asked op here named moved fresh
  rcases exec_cases op state with ⟨_, refused⟩ | done
  · rw [refused]
    exact kept_performed web first state places _ kept
  · rw [done]
    refine kept_performed web first _ places _ (kept_advances web first op state _ places kept (perform_advances op state fresh)
      ?_ rekeys ?_ fun row inserts => (puts row inserts).2)
    · by_cases inserts : ∃ row, op = .insertRegistration row
      · obtain ⟨row, rfl⟩ := inserts
        simp only [EnrollOp.perform]
        split
        · exact List.nodup_cons.mpr ⟨fresh, kept.ids⟩
        · exact kept.ids
      · rw [inserted_same op state fun row same => inserts ⟨row, same⟩]
        exact kept.ids
    · intro entry put
      by_cases inserts : ∃ row, op = .insertRegistration row
      · obtain ⟨row, rfl⟩ := inserts
        simp only [EnrollOp.perform] at put
        split at put
        · rcases List.mem_cons.mp put with rfl | old
          · exact Or.inr (puts entry rfl).1
          · exact Or.inl old
        · exact Or.inl put
      · rw [inserted_same op state fun row same => inserts ⟨row, same⟩] at put
        exact Or.inl put

omit here kept named moved fresh in
theorem clocked_token (request : Registering) (now : Int) (token_hash : String)
    (held : (place.clocked web request now).authority = some (.token token_hash)) : place.authority = some (.token token_hash) := by
  simp only [EnrollPlace.clocked] at held
  generalize (if request.registrationToken.isSome then some request.input.publicKey else place.seen).filter _ = key at held
  cases key with
  | none => exact held
  | some key =>
      simp only [EnrollPlace.prove] at held
      split at held
      · rcases grant_held _ _ _ held with old | ⟨_, same⟩
        · exact old
        · cases same
      · exact held

omit here kept named moved fresh in
theorem looked_token (request : Registering) (found : Option String) (token_hash : String)
    (held : (place.looked request found).authority = some (.token token_hash)) : place.authority = some (.token token_hash) := by
  simp only [EnrollPlace.looked] at held
  split at held
  · rcases grant_held _ _ _ held with old | ⟨_, same⟩
    · exact old
    · cases same
  · exact held

omit here named moved fresh in
-- The one row a token was claimed in had not been claimed before, and has been now.
theorem claimed_once (token_hash now : String) (one : changes ((EnrollOp.consumeToken token_hash now).exec state).1 = 1) :
    token_hash ∈ ((EnrollOp.consumeToken token_hash now).exec state).2.issued ∧
      (∀ row ∈ ((EnrollOp.consumeToken token_hash now).exec state).2.registration_tokens.rows, row.token_hash = token_hash →
        row.consumed_at ≠ none) ∧
      ∀ other ∈ places, other.authority ≠ some (.token token_hash) := by
  cases answer : ((EnrollOp.consumeToken token_hash now).exec state).1 with
  | error error =>
      rw [answer] at one
      cases one
  | ok count =>
      rw [answer] at one
      obtain ⟨counted, after⟩ := exec_answer _ state count answer
      have some_ : 0 < state.registration_tokens.rows.countP fun row : RegistrationToken =>
          decide (row.token_hash = token_hash ∧ row.consumed_at = none ∧ now < row.expires_at) := by
        have counted_ : state.registration_tokens.rows.countP (fun row : RegistrationToken =>
            decide (row.token_hash = token_hash ∧ row.consumed_at = none ∧ now < row.expires_at)) = count := Except.ok.inj counted
        have one_ : count = 1 := one
        rw [counted_, one_]
        exact Nat.one_pos
      obtain ⟨row, inside, claimed⟩ := List.countP_pos_iff.mp some_
      obtain ⟨hash, unused, _⟩ := of_decide_eq_true claimed
      rw [after]
      refine ⟨hash ▸ kept.listed row inside, ?_, ?_⟩
      · intro new member same
        obtain ⟨old, before, rfl⟩ := List.mem_map.mp member
        by_cases taken_ : decide (old.token_hash = token_hash ∧ old.consumed_at = none ∧ now < old.expires_at) = true
        · rw [if_pos taken_]
          exact Option.some_ne_none _
        · rw [if_neg taken_] at same ⊢
          have equal := List.inj_on_of_nodup_map state.registration_tokens.unique before inside (same.trans hash.symm)
          exact absurd claimed (equal ▸ taken_)
      · intro other member held
        exact ((kept.fair other member).token token_hash held).2.1 row inside hash unused

omit here kept named moved fresh in
theorem read_key (backend_id key : String) (found : truthy (answered ((EnrollOp.selectPublicKey backend_id).exec state).1).join = some key) :
    ∃ row ∈ ((EnrollOp.selectPublicKey backend_id).exec state).2.backend_registrations.rows,
      row.backend_id = backend_id ∧ row.public_key = some key := by
  cases answer : ((EnrollOp.selectPublicKey backend_id).exec state).1 with
  | error error =>
      rw [answer] at found
      cases found
  | ok value =>
      rw [answer] at found
      obtain ⟨read, after⟩ := exec_answer _ state value answer
      have value_ : (state.backend_registrations.find? backend_id).map (fun row => row.public_key) = value := Except.ok.inj read
      simp only [answered, ← value_, truthy] at found
      obtain ⟨joined, _⟩ := Option.filter_eq_some_iff.mp found
      obtain ⟨row, stored, written⟩ := Option.map_eq_some_iff.mp (Option.join_eq_some_iff.mp joined)
      rw [after]
      exact ⟨row, state.backend_registrations.find_mem backend_id row stored, state.backend_registrations.find_key backend_id row stored, written⟩

omit here kept named moved fresh in
theorem read_row (backend_id : String) (row : RegistrationRow)
    (found : answered ((EnrollOp.selectByBackend backend_id).exec state).1 = some row) :
    row ∈ ((EnrollOp.selectByBackend backend_id).exec state).2.backend_registrations.rows := by
  cases answer : ((EnrollOp.selectByBackend backend_id).exec state).1 with
  | error error =>
      rw [answer] at found
      cases found
  | ok value =>
      rw [answer] at found
      obtain ⟨read, after⟩ := exec_answer _ state value answer
      have value_ : state.backend_registrations.find? backend_id = value := Except.ok.inj read
      rw [after]
      exact state.backend_registrations.find_mem backend_id row (value_.trans found)

theorem places_step : Kept web first (op.exec state).2 (places.set i there) := by
  have after := tables_step web first state places i place there asked op here kept named moved fresh
  have member : place ∈ places := List.mem_of_getElem? here
  obtain ⟨call_, held⟩ := next_kept web asked place op state there moved
  have fair := after.fair place member
  have stay : there = place → Kept web first (op.exec state).2 (places.set i there) := by
    rintro rfl
    rw [set_here places i there here]
    exact after
  have go : Fair web first (op.exec state).2 places there →
      (∀ token_hash, there.authority = some (.token token_hash) → place.authority ≠ some (.token token_hash) →
        ∀ other ∈ places, other.authority ≠ some (.token token_hash)) → Kept web first (op.exec state).2 (places.set i there) :=
    fun shown single => kept_moved web first _ places i place there here after call_ held
      (fair_mono web first _ places _ there (grants_set places i place there here call_ held) shown) single
  cases asked with
  | register request =>
      cases op with
      | readClock =>
          cases moved
          exact go (fair_clocked web first _ places place request named fair _)
            fun token_hash has before => absurd (clocked_token web place request _ token_hash has) before
      | selectPublicKey backend_id =>
          simp only [enrollNext, registering] at moved
          split at moved
          · rename_i same
            cases moved
            refine go (fair_looked web first _ places place request named fair _ ?_)
              fun token_hash has before => absurd (looked_token place request _ token_hash has) before
            intro key found
            obtain ⟨row, stored, backend, written⟩ := read_key state backend_id key found
            rw [← same, ← backend]
            exact written_vouched web first _ places after _ _ (after.written row stored key written)
          · cases moved
      | consumeToken token_hash now =>
          simp only [enrollNext, registering] at moved
          split at moved
          · rename_i presented
            cases moved
            by_cases one : changes ((EnrollOp.consumeToken token_hash now).exec state).1 = 1
            · obtain ⟨issued, consumed, alone⟩ := claimed_once web first state places kept token_hash now one
              simp only [EnrollPlace.spent, if_pos one] at go held ⊢
              refine go (fair_granted_token web first _ places place request named fair token_hash issued consumed presented.1
                (fair.proved request named _ presented.2)) ?_
              intro other has before
              rcases grant_held _ _ _ has with old | ⟨_, same⟩
              · exact absurd old before
              · cases same
                exact alone
            · exact stay (if_neg one)
          · cases moved
      | selectByBackend backend_id =>
          simp only [enrollNext, registering] at moved
          split at moved
          · cases moved
            refine go ⟨fair.seen, fair.proved, fair.token, fair.key, ?_⟩ fun token_hash has before => absurd has before
            intro row read
            exact after.known row (read_row state backend_id row read)
          · cases moved
      | insertRegistration row =>
          simp only [enrollNext, registering] at moved
          split at moved
          · exact stay (Option.some_inj.mp moved).symm
          · cases moved
      | refresh again id input network ips now =>
          simp only [enrollNext, registering] at moved
          split at moved
          · exact stay (Option.some_inj.mp moved).symm
          · cases moved
      | randomUUID => exact stay (Option.some_inj.mp moved).symm
      | selectRegistration id => exact stay (Option.some_inj.mp moved).symm
      | insertNonce row => exact stay (Option.some_inj.mp moved).symm
      | selectBackend id => exact stay (Option.some_inj.mp moved).symm
      | updateBackend id name base_url tags now => exact stay (Option.some_inj.mp moved).symm
      | _ => cases moved
  | _ =>
      simp only [enrollNext] at moved
      split at moved
      · cases moved
      · exact stay (Option.some_inj.mp moved).symm

end step

abbrev EnrollPool : Type := Pool EnrollOp EnrollOp.Result SignatureError Unit EnrollCall EnrollmentState

def FreshDraws (pool : EnrollPool) (event : PoolEvent EnrollCall) : Prop :=
  match event with
  | .start _ => True
  | .step i => ∀ call op rest, pool.threads[i]? = some ⟨call, .call op rest⟩ → Fresh op pool.state

-- What the two INSERTs put in before is what is there.
structure Begins (state : EnrollmentState) : Prop where
  ids : (state.backend_registrations.rows.map RegistrationRow.id).Nodup
  inserted : state.inserted = state.backend_registrations.rows
  issued : state.issued = state.registration_tokens.rows.map RegistrationToken.token_hash

def grantedIn (pool : EnrollPool) (authority : Nat → Option Authority) (asked : Registering) (held : Authority) : Prop :=
  ∃ i rest, pool.threads[i]? = some ⟨.register asked, rest⟩ ∧ authority i = some held

-- What each request was let in by.
structure Attributed (web : Web) (first : List RegistrationRow) (pool : EnrollPool) (authority : Nat → Option Authority) : Prop where
  keys : ∀ row ∈ pool.state.backend_registrations.rows, ∀ key ∈ row.public_key,
    Vouched first (grantedIn pool authority) row.backend_id key
  token : ∀ asked token_hash, grantedIn pool authority asked (.token token_hash) →
    asked.registrationToken.map (sha256Base64Url web) = some token_hash ∧ token_hash ∈ pool.state.issued ∧
      ∃ now, signedWith web asked now asked.input.publicKey = true
  key : ∀ asked key, grantedIn pool authority asked (.key key) →
    Vouched first (grantedIn pool authority) asked.input.backendId key ∧ ∃ now, signedWith web asked now key = true
  once : ∀ i j token_hash, authority i = some (.token token_hash) → authority j = some (.token token_hash) → i = j

section runs

variable (web : Web) (start : EnrollmentState) (events : List (PoolEvent EnrollCall)) (begins : Begins start)
  (guarded : Pool.Guarded EnrollOp.exec (EnrollCall.body web) FreshDraws ⟨start, []⟩ events)

include begins guarded

-- The rule for interleaved runs, with the places each request keeps to.
theorem enrollment_kept :
    ∃ places, Aligned EnrollOp.exec (enrollNext web) (fun asked there _ => there.call = asked)
        (Pool.run EnrollOp.exec (EnrollCall.body web) ⟨start, []⟩ events).threads places ∧
      Kept web start.backend_registrations.rows (Pool.run EnrollOp.exec (EnrollCall.body web) ⟨start, []⟩ events).state places := by
  refine run_outline EnrollOp.exec (enrollNext web) (EnrollCall.body web) EnrollCall.entry _ (enroll_follows web)
    (Kept web start.backend_registrations.rows) FreshDraws start ?_ ?_ ?_ events guarded
  · refine ⟨?_, ?_, ?_, ?_, ?_, ?_, ?_⟩
    · intro row member
      rw [begins.inserted]
      exact ⟨row, member, same_refl row⟩
    · rw [begins.inserted]
      exact begins.ids
    · rw [begins.inserted]
      exact fun entry member => Or.inl member
    · exact fun row member key has => Or.inl ⟨row, member, rfl, has⟩
    · intro row member
      rw [begins.issued]
      exact List.mem_map_of_mem member
    · intro place none_
      cases none_
    · intro i j one other token_hash none_
      cases none_
  · intro pool places asked kept _
    exact kept_start web _ pool.state places asked kept
  · intro pool places i asked op rest place there aligned kept allowed found located moved
    have named : place.call = asked := follows_names EnrollOp.exec (enrollNext web asked) EnrollPlace.call asked
      (fun place op state there moved => (next_kept web asked place op state there moved).1) pool.state place _
      (aligned.follows i _ place found located)
    exact places_step web _ pool.state places i place there asked op located kept named moved (allowed asked op rest found)

-- Over every run, with every failure of D1, a registration has a key that was there first, or that a request spent a
-- registration token of its own for, or that was handed on with the signature of such a key.
theorem keys_vouched : ∃ authority, Attributed web start.backend_registrations.rows
    (Pool.run EnrollOp.exec (EnrollCall.body web) ⟨start, []⟩ events) authority := by
  obtain ⟨places, aligned, kept⟩ := enrollment_kept web start events begins guarded
  generalize Pool.run EnrollOp.exec (EnrollCall.body web) ⟨start, []⟩ events = pool at aligned kept
  have called : ∀ (i : Nat) (thread : Thread EnrollOp EnrollOp.Result SignatureError Unit EnrollCall) (place : EnrollPlace),
      pool.threads[i]? = some thread → places[i]? = some place → place.call = thread.call := by
    intro i thread place found located
    exact follows_names EnrollOp.exec (enrollNext web thread.call) EnrollPlace.call thread.call
      (fun place op state there moved => (next_kept web thread.call place op state there moved).1) pool.state place _
      (aligned.follows i thread place found located)
  have into : ∀ asked held, grants places asked held → grantedIn pool (fun i => places[i]?.bind EnrollPlace.authority) asked held := by
    rintro asked held ⟨place, member, call_, has⟩
    obtain ⟨i, located⟩ := List.mem_iff_getElem?.mp member
    have bound : i < pool.threads.length := aligned.size ▸ (List.getElem?_eq_some_iff.mp located).1
    have found := List.getElem?_eq_getElem bound
    have same := (called i _ place found located).symm.trans call_
    refine ⟨i, pool.threads[i].rest, ?_, ?_⟩
    · rw [found, ← same]
    · simp [located, has]
  have from_ : ∀ asked held, grantedIn pool (fun i => places[i]?.bind EnrollPlace.authority) asked held → grants places asked held := by
    rintro asked held ⟨i, rest, found, has⟩
    obtain ⟨place, located, authority⟩ := Option.bind_eq_some_iff.mp has
    exact ⟨place, List.mem_of_getElem? located, called i _ place found located, authority⟩
  refine ⟨fun i => places[i]?.bind EnrollPlace.authority, ?_, ?_, ?_, ?_⟩
  · intro row member key has
    exact vouched_mono _ _ _ into _ _ (written_vouched web _ pool.state places kept _ _ (kept.written row member key has))
  · intro asked token_hash granted
    obtain ⟨place, member, call_, has⟩ := from_ asked _ granted
    obtain ⟨issued, _, other, call', presented, signed⟩ := (kept.fair place member).token token_hash has
    have same : other = asked := EnrollCall.register.inj (call'.symm.trans call_)
    rw [same] at presented signed
    exact ⟨presented, issued, signed⟩
  · intro asked key granted
    obtain ⟨place, member, call_, has⟩ := from_ asked _ granted
    obtain ⟨other, call', vouched, signed⟩ := (kept.fair place member).key key has
    have same : other = asked := EnrollCall.register.inj (call'.symm.trans call_)
    rw [same] at vouched signed
    exact ⟨vouched_mono _ _ _ into _ _ vouched, signed⟩
  · intro i j token_hash one other
    obtain ⟨place, located, has⟩ := Option.bind_eq_some_iff.mp one
    obtain ⟨place', located', has'⟩ := Option.bind_eq_some_iff.mp other
    exact kept.single i j place place' token_hash located located' has has'

end runs

instance (op : EnrollOp) (state : EnrollmentState) : Decidable (Fresh op state) :=
  match op with
  | .insertToken row => inferInstanceAs (Decidable (row.token_hash ∉ state.issued))
  | .insertRegistration row => inferInstanceAs (Decidable (row.id ∉ state.inserted.map RegistrationRow.id))
  | .readClock => inferInstanceAs (Decidable True)
  | .randomUUID => inferInstanceAs (Decidable True)
  | .randomToken => inferInstanceAs (Decidable True)
  | .consumeToken _ _ => inferInstanceAs (Decidable True)
  | .deleteExpiredTokens _ => inferInstanceAs (Decidable True)
  | .selectPublicKey _ => inferInstanceAs (Decidable True)
  | .selectByBackend _ => inferInstanceAs (Decidable True)
  | .selectRegistration _ => inferInstanceAs (Decidable True)
  | .refresh _ _ _ _ _ _ => inferInstanceAs (Decidable True)
  | .approve _ _ => inferInstanceAs (Decidable True)
  | .reject _ _ _ => inferInstanceAs (Decidable True)
  | .deleteRegistration _ => inferInstanceAs (Decidable True)
  | .insertNonce _ => inferInstanceAs (Decidable True)
  | .deleteNonces _ => inferInstanceAs (Decidable True)
  | .deleteExpiredNonces _ => inferInstanceAs (Decidable True)
  | .selectBackend _ => inferInstanceAs (Decidable True)
  | .insertBackend _ => inferInstanceAs (Decidable True)
  | .updateBackend _ _ _ _ _ => inferInstanceAs (Decidable True)
  | .recordStatus _ _ => inferInstanceAs (Decidable True)
  | .deleteBackend _ => inferInstanceAs (Decidable True)
  | .status _ => inferInstanceAs (Decidable True)
  | .removeTunnel _ => inferInstanceAs (Decidable True)

def drawsFresh (pool : EnrollPool) (event : PoolEvent EnrollCall) : Bool :=
  match event with
  | .start _ => true
  | .step i =>
      match pool.threads[i]? with
      | some ⟨_, .call op _⟩ => decide (Fresh op pool.state)
      | _ => true

theorem draws_fresh (pool : EnrollPool) (event : PoolEvent EnrollCall) (checked : drawsFresh pool event = true) :
    FreshDraws pool event := by
  cases event with
  | start asked => exact trivial
  | step i =>
      intro asked op rest found
      rw [drawsFresh, found] at checked
      exact of_decide_eq_true checked

theorem no_query_plain (text : String) (asked : text ∈ (none : Option String)) : '\n' ∉ text.toList :=
  absurd asked (Option.not_mem_none text)

-- A control plane that knows nobody, where every signature verifies.
def trustingWeb : Web where
  url := fun _ => some ⟨"/api/registrations", none, by decide, by decide, no_query_plain⟩
  sha256 := fun bytes => bytes
  ed25519Sign := fun _ _ => some []
  ed25519Verify := fun _ _ _ => some true

def nobody : EnrollmentState where
  clock := fun _ => 1760000000000
  uuids := fun n => toString n
  tokens := fun _ => String.ofList (List.replicate 43 'T')
  answers := fun _ => .ok "vacps-0123456789ab"
  faults := fun _ => .none
  performed := 0
  registration_tokens := Table.empty
  backend_registrations := Table.empty
  agent_request_nonces := Table.empty
  backends := Table.empty
  issued := []
  inserted := []

theorem nobody_begins : Begins nobody :=
  ⟨List.nodup_nil, rfl, rfl⟩

def keyText (letter : Char) : String := String.ofList (List.replicate 43 letter)

theorem key_text_form (letter : Char) (plain : letter.isAlphanum = true) : isBase64Url 43 43 (keyText letter) = true := by
  simp [isBase64Url, keyText, plain]

def agentAt (letter : Char) (plain : letter.isAlphanum = true) (token : Option String) (nonce : String) : EnrollCall :=
  .register
    { request := ⟨"POST", "https://control/api/registrations",
        [("x-vacps-id", "vacps-0123456789ab"), ("x-vacps-timestamp", "1760000000"), ("x-vacps-nonce", nonce),
          ("x-vacps-signature", String.ofList (List.replicate 86 'A'))], ""⟩
      input := ⟨"vacps-0123456789ab", "agent", "https://agent", [], [], "1.0.0", keyText letter, key_text_form letter plain⟩
      body := ""
      registrationToken := token
      network := ⟨none, none, none⟩ }

-- A token is issued, an agent registers with it, and registers again with the token it has spent.
def enrollment : List (PoolEvent EnrollCall) :=
  .start .issue :: List.replicate 3 (.step 0) ++
    .start (agentAt 'K' (by decide) (some (String.ofList (List.replicate 43 'T'))) "AAAAAAAAAAAAAAAA") :: List.replicate 10 (.step 1) ++
    .start (agentAt 'K' (by decide) (some (String.ofList (List.replicate 43 'T'))) "BBBBBBBBBBBBBBBB") :: List.replicate 10 (.step 2)

theorem enrollment_guarded :
    Pool.Guarded EnrollOp.exec (EnrollCall.body trustingWeb) FreshDraws ⟨nobody, []⟩ enrollment :=
  guarded_passes EnrollOp.exec (EnrollCall.body trustingWeb) FreshDraws drawsFresh draws_fresh ⟨nobody, []⟩ enrollment
    (by decide +kernel)

theorem keys_vouched_token :
    (Pool.run EnrollOp.exec (EnrollCall.body trustingWeb) ⟨nobody, []⟩ enrollment).state.backend_registrations.rows.map
        (fun row => (row.backend_id, row.public_key)) = [("vacps-0123456789ab", some (keyText 'K'))] ∧
      ∃ authority, Attributed trustingWeb []
        (Pool.run EnrollOp.exec (EnrollCall.body trustingWeb) ⟨nobody, []⟩ enrollment) authority :=
  ⟨by decide +kernel, keys_vouched trustingWeb nobody enrollment nobody_begins enrollment_guarded⟩

theorem inserted_grows (op : EnrollOp) (state : EnrollmentState) : ∀ entry ∈ state.inserted, entry ∈ (op.exec state).2.inserted := by
  intro entry member
  rcases exec_cases op state with ⟨_, refused⟩ | done
  · rw [refused]
    exact member
  · rw [done]
    by_cases inserts : ∃ row, op = .insertRegistration row
    · obtain ⟨row, rfl⟩ := inserts
      simp only [EnrollOp.perform]
      split
      · exact List.mem_cons_of_mem _ member
      · exact member
    · change entry ∈ (op.perform state).2.inserted
      rw [inserted_same op state fun row same => inserts ⟨row, same⟩]
      exact member

theorem run_inserted (web : Web) (pool : EnrollPool) (events : List (PoolEvent EnrollCall)) :
    ∀ entry ∈ pool.state.inserted, entry ∈ (Pool.run EnrollOp.exec (EnrollCall.body web) pool events).state.inserted := by
  induction events generalizing pool with
  | nil => exact fun entry member => member
  | cons event rest ih =>
      intro entry member
      refine ih (pool.perform EnrollOp.exec (EnrollCall.body web) event) entry ?_
      cases event with
      | start asked => exact member
      | step i =>
          rcases advance_cases EnrollOp.exec pool i with lost | ⟨asked, op, more, found, taken⟩
          · rw [Pool.perform, lost]
            exact member
          · rw [Pool.perform, taken]
            exact inserted_grows op pool.state entry member

-- A registration stays its agent's for as long as it is there, and keeps its key unless it was there first without one.
theorem registration_identity_fixed (web : Web) (start : EnrollmentState) (earlier later : List (PoolEvent EnrollCall))
    (begins : Begins start)
    (guarded : Pool.Guarded EnrollOp.exec (EnrollCall.body web) FreshDraws ⟨start, []⟩ (earlier ++ later)) :
    ∀ row ∈ (Pool.run EnrollOp.exec (EnrollCall.body web) ⟨start, []⟩ earlier).state.backend_registrations.rows,
      ∀ after ∈ (Pool.run EnrollOp.exec (EnrollCall.body web) ⟨start, []⟩ (earlier ++ later)).state.backend_registrations.rows,
        row.id = after.id → row.backend_id = after.backend_id ∧
          ((∀ old ∈ start.backend_registrations.rows, old.id = row.id → truthy old.public_key ≠ none) →
            row.public_key = after.public_key) := by
  intro row member after member' same
  have front : Pool.Guarded EnrollOp.exec (EnrollCall.body web) FreshDraws ⟨start, []⟩ earlier := by
    intro before event rest split
    exact guarded before event (rest ++ later) (by rw [split]; simp)
  obtain ⟨_, _, before⟩ := enrollment_kept web start earlier begins front
  obtain ⟨_, _, last⟩ := enrollment_kept web start (earlier ++ later) begins guarded
  obtain ⟨one, put, alike⟩ := before.known row member
  obtain ⟨two, put', alike'⟩ := last.known after member'
  have grown := run_inserted web _ later one put
  rw [← run_append] at grown
  have equal := List.inj_on_of_nodup_map last.ids grown put' ((alike.1.trans same).trans alike'.1.symm)
  refine ⟨by rw [← alike.2.1, equal, alike'.2.1], ?_⟩
  intro enrolled
  have has : truthy one.public_key ≠ none := (before.keyed one put).elim (fun old => enrolled one old alike.1) id
  obtain ⟨key, keyed⟩ := Option.ne_none_iff_exists'.mp has
  rw [alike.2.2 key keyed, alike'.2.2 key (equal ▸ keyed)]

-- A registration read before its agent registers again, and after.
theorem registration_identity_fixed_again :
    ∃ row ∈ (Pool.run EnrollOp.exec (EnrollCall.body trustingWeb) ⟨nobody, []⟩ (enrollment.take 15)).state.backend_registrations.rows,
      ∃ after ∈ (Pool.run EnrollOp.exec (EnrollCall.body trustingWeb) ⟨nobody, []⟩
          (enrollment.take 15 ++ enrollment.drop 15)).state.backend_registrations.rows,
        row.id = after.id ∧ row.backend_id = after.backend_id ∧ row.public_key = after.public_key := by
  have stored : (Pool.run EnrollOp.exec (EnrollCall.body trustingWeb) ⟨nobody, []⟩
      (enrollment.take 15)).state.backend_registrations.rows.any (fun row => (Pool.run EnrollOp.exec (EnrollCall.body trustingWeb)
        ⟨nobody, []⟩ (enrollment.take 15 ++ enrollment.drop 15)).state.backend_registrations.rows.any fun after =>
          decide (row.id = after.id)) = true := by decide +kernel
  obtain ⟨row, member, found⟩ := List.any_eq_true.mp stored
  obtain ⟨after, member', same⟩ := List.any_eq_true.mp found
  have guarded : Pool.Guarded EnrollOp.exec (EnrollCall.body trustingWeb) FreshDraws ⟨nobody, []⟩
      (enrollment.take 15 ++ enrollment.drop 15) := by
    rw [List.take_append_drop]
    exact enrollment_guarded
  obtain ⟨backend, key⟩ := registration_identity_fixed trustingWeb nobody (enrollment.take 15) (enrollment.drop 15) nobody_begins
    guarded row member after member' (of_decide_eq_true same)
  exact ⟨row, member, after, member', of_decide_eq_true same, backend, key fun old none_ => absurd none_ List.not_mem_nil⟩

end Vacps.Enrollment
