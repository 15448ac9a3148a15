/-
# One resolver at a time

The invariant behind inter-node authentication: a guard is in progress exactly while one
resolver for its node is outstanding, resolvers have a host name to look up, and the addresses
of a guard are those that were declared or stored last. A check that counts its result after
the guard has changed cannot break it, since the state is looked at again under the write lock.
-/

import Bob.Access.Basic

namespace Bob.Access

open Bob.Math

namespace DCredentialsResolveGuard

variable {guard : DCredentialsResolveGuard} {authenticated : Bool} {now : ℕ}

/-- An update keeps the credentials. It asks for a resolver only of a guard that is not in
progress and was not created with an address, and otherwise keeps what is in progress. -/
theorem updateResolveState_spec :
    (guard.updateResolveState authenticated now).2.credentials = guard.credentials ∧
    ((guard.updateResolveState authenticated now).1 = true →
      guard.resolveState ≠ .inProgress ∧ guard.credentials.isCreatedWithAddress = false) ∧
    ((guard.updateResolveState authenticated now).1 = false →
      ((guard.updateResolveState authenticated now).2.resolveState = .inProgress ↔
        guard.resolveState = .inProgress)) := by
  unfold updateResolveState
  split_ifs with fixed due
  · exact ⟨rfl, nofun, fun _ => Iff.rfl⟩
  · have created : guard.credentials.isCreatedWithAddress = false := Bool.eq_false_iff.mpr fixed
    cases state : guard.resolveState with
    | inProgress => simp [ResolveState.update]
    | resolved n => cases authenticated <;> simp [ResolveState.update, created]
  · exact ⟨rfl, nofun, fun _ => Iff.rfl⟩

end DCredentialsResolveGuard

/-- A resolver looks up the host name of a node, and waits for the lock only with addresses. -/
structure Resolver.Sound (resolver : Resolver) : Prop where
  internode : ∃ nodeName, resolver.cred.kind = .interNode nodeName
  hostname : resolver.cred.hostname.isSome
  found : ∀ addr, resolver.addr = some addr → addr ≠ []

namespace Basic

/-- What holds of the guard of a node. -/
structure Guarded (creds : Dict String DeclaredCredentials) (known : Known) (b : Basic)
    (nodeName : String) (guard : DCredentialsResolveGuard) : Prop where
  declared : ∃ cred, creds.lookup nodeName = some cred ∧
    cred.hostname = guard.credentials.hostname
  kind : guard.credentials.kind = .interNode nodeName
  address : guard.credentials.address = known nodeName
  /-- There is an address, or a name to look one up. -/
  reachable : guard.credentials.hostname = none → known nodeName ≠ []
  waits : guard.resolveState = .inProgress → guard.credentials.hostname.isSome
  outstanding : b.outstanding nodeName = if guard.resolveState = .inProgress then 1 else 0

/-- The invariant of the authenticator. -/
structure Inv (creds : Dict String DeclaredCredentials) (known : Known) (b : Basic) : Prop where
  guarded : ∀ nodeName guard, b.nodes.lookup nodeName = some guard →
    Guarded creds known b nodeName guard
  missing : ∀ nodeName, b.nodes.lookup nodeName = none →
    creds.lookup nodeName = none ∧ known nodeName = [] ∧ b.outstanding nodeName = 0
  resolvers : ∀ resolver ∈ b.resolvers, resolver.Sound

variable {creds : Dict String DeclaredCredentials} {known : Known} {b b' : Basic}

/-- A guard keeps its credentials; its state, and the resolvers, may change. -/
theorem Guarded.of_same {nodeName : String} {guard guard' : DCredentialsResolveGuard}
    (here : Guarded creds known b nodeName guard) (same : guard'.credentials = guard.credentials)
    (waits : guard'.resolveState = .inProgress → guard.credentials.hostname.isSome)
    (outstanding : b'.outstanding nodeName = if guard'.resolveState = .inProgress then 1 else 0) :
    Guarded creds known b' nodeName guard' := by
  refine ⟨?_, ?_, ?_, ?_, ?_, outstanding⟩
  all_goals rw [same]
  · exact here.declared
  · exact here.kind
  · exact here.address
  · exact here.reachable
  · exact waits

/-- The guards stay, and as many resolvers are outstanding. -/
theorem Inv.congr (inv : b.Inv creds known) (nodes : b'.nodes = b.nodes)
    (outstanding : ∀ nodeName, b'.outstanding nodeName = b.outstanding nodeName)
    (resolvers : ∀ resolver ∈ b'.resolvers, resolver.Sound) : b'.Inv creds known := by
  refine ⟨fun nodeName guard found => ?_, fun nodeName absent => ?_, resolvers⟩
  · have here := inv.guarded nodeName guard (by rwa [← nodes])
    exact { here with outstanding := (outstanding nodeName).trans here.outstanding }
  · rw [outstanding nodeName]
    exact inv.missing nodeName (by rwa [← nodes])

/-- A node gets a new guard, and what is known or outstanding changes for this node only. -/
theorem Inv.insert {known' : Known} {nodeName : String} {guard : DCredentialsResolveGuard}
    (inv : b.Inv creds known) (nodes : b'.nodes = b.nodes.insert nodeName guard)
    (here : Guarded creds known' b' nodeName guard)
    (elsewhere : ∀ other, other ≠ nodeName → known' other = known other ∧
      b'.outstanding other = b.outstanding other)
    (resolvers : ∀ resolver ∈ b'.resolvers, resolver.Sound) : b'.Inv creds known' := by
  refine ⟨fun other guard' looked => ?_, fun other absent => ?_, resolvers⟩
  · rw [nodes] at looked
    by_cases same : other = nodeName
    · subst same
      rw [AList.lookup_insert] at looked
      cases looked
      exact here
    · rw [AList.lookup_insert_ne same] at looked
      obtain ⟨sameKnown, sameOutstanding⟩ := elsewhere other same
      have before := inv.guarded other guard' looked
      exact
        { before with
          address := before.address.trans sameKnown.symm
          reachable := fun none => sameKnown ▸ before.reachable none
          outstanding := sameOutstanding.trans before.outstanding }
  · rw [nodes] at absent
    by_cases same : other = nodeName
    · subst same
      rw [AList.lookup_insert] at absent
      cases absent
    · rw [AList.lookup_insert_ne same] at absent
      obtain ⟨sameKnown, sameOutstanding⟩ := elsewhere other same
      rw [sameKnown, sameOutstanding]
      exact inv.missing other absent

/-! ## Resolver tasks -/

theorem outstanding_spawn (cred : DeclaredCredentials) (nodeName : String) :
    (b.spawnResolver cred).outstanding nodeName =
      b.outstanding nodeName + if cred.kind = .interNode nodeName then 1 else 0 := by
  rw [outstanding, spawnResolver, List.map_append, List.count_append, outstanding]
  simp [List.count_singleton]

/-- A resolver that ends was one of those that were outstanding. -/
theorem outstanding_erase {index : ℕ} {resolver : Resolver}
    (here : b.resolvers[index]? = some resolver) (nodeName : String) :
    b.outstanding nodeName =
      outstanding { b with resolvers := b.resolvers.eraseIdx index } nodeName +
        if resolver.cred.kind = .interNode nodeName then 1 else 0 := by
  obtain ⟨inside, rfl⟩ := List.getElem?_eq_some_iff.mp here
  have perm := (List.getElem_cons_eraseIdx_perm inside).map fun resolver => resolver.cred.kind
  rw [outstanding, ← perm.count_eq, List.map_cons, List.count_cons, outstanding]
  simp

/-! ## Steps -/

theorem Inv.processAuthResult (inv : b.Inv creds known) (nodeName : String) (authenticated : Bool)
    (now : ℕ) : (b.processAuthResult nodeName authenticated now).Inv creds known := by
  unfold Basic.processAuthResult
  cases looked : b.nodes.lookup nodeName with
  | none => exact inv
  | some guard =>
    have here := inv.guarded nodeName guard looked
    obtain ⟨same, starts, stays⟩ :=
      @DCredentialsResolveGuard.updateResolveState_spec guard authenticated now
    dsimp only
    split_ifs with start
    · -- it was not in progress, so none was outstanding
      obtain ⟨idle, created⟩ := starts start
      have hostname : guard.credentials.hostname.isSome := by
        by_contra none
        have none := Option.not_isSome_iff_eq_none.mp none
        have addresses := here.reachable none
        rw [← here.address] at addresses
        simp [DeclaredCredentials.isCreatedWithAddress, none, addresses] at created
      refine inv.insert rfl (here.of_same same (fun _ => hostname) ?_)
        (fun other different => ⟨rfl, ?_⟩) ?_
      · have none := here.outstanding
        rw [if_neg idle] at none
        rw [outstanding_spawn, same, if_pos here.kind, DCredentialsResolveGuard.setInProgress,
          if_pos rfl]
        exact congrArg (· + 1) none
      · have other : guard.credentials.kind ≠ .interNode other := by
          rw [here.kind]
          exact fun same => different (CredentialsKind.interNode.inj same).symm
        rw [outstanding_spawn, same, if_neg other]
        rfl
      · intro resolver member
        rcases List.mem_append.mp member with before | last
        · exact inv.resolvers resolver before
        · rw [List.mem_singleton.mp last, same]
          exact ⟨⟨nodeName, here.kind⟩, hostname, nofun⟩
    · have stays := stays (Bool.eq_false_iff.mpr start)
      refine inv.insert rfl (here.of_same same (fun state => here.waits (stays.mp state)) ?_)
        (fun _ _ => ⟨rfl, rfl⟩) inv.resolvers
      simp only [stays]
      exact here.outstanding

/-- A resolver that stores its addresses was the one outstanding for its node. -/
theorem Inv.storeResolved {index : ℕ} {resolver : Resolver} {addr : List SocketAddr}
    (inv : b.Inv creds known) (here : b.resolvers[index]? = some resolver)
    (found : resolver.addr = some addr) (now : ℕ) {nodeName : String}
    (kind : resolver.cred.kind = .interNode nodeName) :
    (storeResolved { b with resolvers := b.resolvers.eraseIdx index } resolver.cred addr now).Inv
      creds (Function.update known nodeName addr) := by
  have sound := inv.resolvers resolver (List.mem_of_getElem? here)
  have counted := outstanding_erase here nodeName
  rw [if_pos kind] at counted
  rw [Basic.storeResolved, kind]
  dsimp only
  cases looked : b.nodes.lookup nodeName with
  | none =>
    have none := (inv.missing nodeName looked).2.2
    omega
  | some guard =>
    have before := inv.guarded nodeName guard looked
    have progress : guard.resolveState = .inProgress := by
      by_contra idle
      have none := before.outstanding
      rw [if_neg idle] at none
      omega
    have last : outstanding { b with resolvers := b.resolvers.eraseIdx index } nodeName = 0 := by
      have one := before.outstanding
      rw [if_pos progress] at one
      omega
    refine inv.insert rfl ?_ (fun other different => ⟨?_, ?_⟩) ?_
    · refine
        { declared := before.declared
          kind := before.kind
          address := (Function.update_self nodeName addr known).symm
          reachable := fun _ => ?_
          waits := nofun
          outstanding := last }
      rw [Function.update_self]
      exact sound.found addr found
    · exact Function.update_of_ne different addr known
    · have same := outstanding_erase here other
      rw [kind, if_neg fun same => different (CredentialsKind.interNode.inj same).symm] at same
      exact same.symm
    · exact fun other member => inv.resolvers other (List.mem_of_mem_eraseIdx member)

/-- Every step keeps the invariant. -/
theorem Inv.step {event : Event} (inv : b.Inv creds known)
    (stepped : b.step event = some (.ok b')) : b'.Inv creds (b.learn known event) := by
  cases event with
  | check nodeName ip now =>
    unfold Basic.step at stepped
    dsimp only at stepped
    cases stepped
    split_ifs
    · exact inv.congr rfl (fun _ => rfl) inv.resolvers
    · exact inv
  | count index now =>
    obtain ⟨⟨nodeName, authenticated⟩, -, rest⟩ := Option.bind_eq_some_iff.mp stepped
    cases rest
    have uncounted : Inv creds known { b with checks := b.checks.eraseIdx index } :=
      inv.congr rfl (fun _ => rfl) inv.resolvers
    exact uncounted.processAuthResult nodeName authenticated now
  | lookup index answer =>
    obtain ⟨resolver, here, rest⟩ := Option.bind_eq_some_iff.mp stepped
    split at rest
    · cases rest
    · cases rest
    · split at rest
      · cases rest
        exact inv
      · cases rest
        exact inv
      · rename_i first others
        cases rest
        have sound := inv.resolvers resolver (List.mem_of_getElem? here)
        refine inv.congr rfl (fun nodeName => ?_) fun other member => ?_
        · have kinds : (b.resolvers.set index ⟨resolver.cred, some (first :: others)⟩).map
              (fun resolver => resolver.cred.kind) =
                b.resolvers.map fun resolver => resolver.cred.kind := map_set_of_eq here rfl
          rw [outstanding, kinds, outstanding]
        · rcases List.mem_or_eq_of_mem_set member with before | rfl
          · exact inv.resolvers other before
          · refine { sound with found := fun addr same => ?_ }
            cases same
            exact List.cons_ne_nil first others
  | store index now =>
    obtain ⟨resolver, here, rest⟩ := Option.bind_eq_some_iff.mp stepped
    obtain ⟨addr, found, rest⟩ := Option.bind_eq_some_iff.mp rest
    cases rest
    obtain ⟨nodeName, kind⟩ := (inv.resolvers resolver (List.mem_of_getElem? here)).internode
    have learned : b.learn known (.store index now) = Function.update known nodeName addr := by
      obtain ⟨⟨address, hostname, _⟩, _⟩ := resolver
      cases kind
      cases found
      simp only [learn, here]
    rw [learned]
    exact inv.storeResolved here found now kind

/-- An event teaches nothing, or the addresses of a resolver. -/
theorem learn_cases (b : Basic) (known : Known) (event : Event) :
    b.learn known event = known ∨ ∃ resolver ∈ b.resolvers, ∃ addr nodeName,
      resolver.addr = some addr ∧ b.learn known event = Function.update known nodeName addr := by
  cases event with
  | store index now =>
    cases here : b.resolvers[index]? with
    | none => exact Or.inl (by simp only [learn, here])
    | some resolver =>
      obtain ⟨⟨_, _, kind⟩, found⟩ := resolver
      cases found with
      | none => exact Or.inl (by simp only [learn, here])
      | some addr =>
        cases kind with
        | interNode node =>
          exact Or.inr ⟨_, List.mem_of_getElem? here, addr, node, rfl, by simp only [learn, here]⟩
        | basic | token => exact Or.inl (by simp only [learn, here])
  | check | count | lookup => exact Or.inl rfl

/-- Along a run the invariant is kept, and no node loses its last address. -/
theorem Inv.run {known' : Known} (inv : b.Inv creds known) (run : Run known b known' b') :
    b'.Inv creds known' ∧ ∀ nodeName, known nodeName ≠ [] → known' nodeName ≠ [] := by
  induction run with
  | refl => exact ⟨inv, fun _ => id⟩
  | @tail known' _ b' next event _ stepped ih =>
    obtain ⟨inv', keeps⟩ := ih inv
    refine ⟨inv'.step stepped, fun nodeName some => ?_⟩
    rcases learn_cases b' known' event with same | ⟨resolver, member, addr, node, found, learned⟩
    · rw [same]
      exact keeps nodeName some
    · rw [learned]
      by_cases here : nodeName = node
      · rw [here, Function.update_self]
        exact (inv'.resolvers resolver member).found addr found
      · rw [Function.update_of_ne here]
        exact keeps nodeName some

/-! ## The start -/

/-- The node is handed to a resolver at the start. -/
private def unresolved (entry : Sigma fun _ : String => DeclaredCredentials) : Bool :=
  entry.2.address.isEmpty && entry.2.hostname.isSome

/-- The guard of a node at the start. -/
private def firstGuard (period : ℕ) (now : String → ℕ) (nodeName : String)
    (cred : DeclaredCredentials) : DCredentialsResolveGuard :=
  let guard := DCredentialsResolveGuard.new cred period (now nodeName)
  if cred.address.isEmpty && cred.hostname.isSome then guard.setInProgress else guard

private theorem firstGuard_credentials {period : ℕ} {now : String → ℕ} {nodeName : String}
    {cred : DeclaredCredentials} :
    (firstGuard period now nodeName cred).credentials = cred := by
  unfold firstGuard
  dsimp only
  split_ifs
  · rfl
  · rfl

private theorem firstGuard_inProgress_iff {period : ℕ} {now : String → ℕ} {nodeName : String}
    {cred : DeclaredCredentials} :
    (firstGuard period now nodeName cred).resolveState = .inProgress ↔
      (cred.address.isEmpty && cred.hostname.isSome) = true := by
  unfold firstGuard
  dsimp only
  split_ifs with without
  · exact iff_of_true rfl without
  · exact iff_of_false nofun without

private theorem foldl_setNodeCredentials (now : String → ℕ)
    (entries : List (Sigma fun _ : String => DeclaredCredentials)) (b : Basic) :
    entries.foldl (setNodeCredentials now) b =
      { b with
        nodes := entries.foldl (fun nodes entry => nodes.insert entry.1
          (firstGuard b.resolveSleepPeriodMs now entry.1 entry.2)) b.nodes
        resolvers :=
          b.resolvers ++ (entries.filter unresolved).map fun entry => ⟨entry.2, none⟩ } := by
  induction entries generalizing b with
  | nil => simp
  | cons entry rest ih =>
    rw [List.foldl_cons, ih, List.foldl_cons, setNodeCredentials]
    by_cases without : unresolved entry = true
    · have spawn : (entry.2.address.isEmpty && entry.2.hostname.isSome) = true := without
      simp [spawn, without, firstGuard, spawnResolver]
    · have keep : ¬ (entry.2.address.isEmpty && entry.2.hostname.isSome) = true := without
      simp only [keep, without, firstGuard, List.filter_cons, Bool.false_eq_true, if_false]

/-- At most one entry has a given key. -/
private theorem count_unresolved {entries : List (Sigma fun _ : String => DeclaredCredentials)}
    (distinct : entries.NodupKeys)
    (keyed : ∀ entry ∈ entries, entry.2.kind = .interNode entry.1) (nodeName : String) :
    ((entries.filter unresolved).map fun entry => entry.2.kind).count (.interNode nodeName) =
      match entries.dlookup nodeName with
      | some cred => if cred.address.isEmpty && cred.hostname.isSome then 1 else 0
      | none => 0 := by
  induction entries with
  | nil => rfl
  | cons entry rest ih =>
    obtain ⟨fresh, distinctRest⟩ := List.nodupKeys_cons.mp distinct
    have later := ih distinctRest fun other member => keyed other (List.mem_cons_of_mem _ member)
    have kind : entry.2.kind = .interNode entry.1 := keyed entry List.mem_cons_self
    by_cases same : nodeName = entry.1
    · subst same
      rw [List.dlookup_eq_none.mpr fresh] at later
      rw [List.dlookup_cons_eq]
      by_cases without : unresolved entry = true
      · have spawn : (entry.2.address.isEmpty && entry.2.hostname.isSome) = true := without
        rw [List.filter_cons_of_pos without, List.map_cons, kind, List.count_cons_self, later]
        simp only [spawn, if_true]
      · have keep : ¬ (entry.2.address.isEmpty && entry.2.hostname.isSome) = true := without
        rw [List.filter_cons_of_neg without, later]
        simp only [keep, Bool.false_eq_true, if_false]
    · have other : entry.2.kind ≠ .interNode nodeName := by
        rw [kind]
        exact fun equal => same (CredentialsKind.interNode.inj equal).symm
      rw [List.dlookup_cons_ne _ _ same, ← later, List.filter_cons]
      split_ifs
      · rw [List.map_cons, List.count_cons_of_ne other]
      · rfl

/-- The authenticator starts with the invariant, and knows what is declared. -/
theorem inv_of_setNodesCredentials {period : ℕ} {now : String → ℕ} {start : Basic}
    (keyed : ∀ nodeName cred, creds.lookup nodeName = some cred →
      cred.kind = .interNode nodeName)
    (set : Basic.setNodesCredentials ⟨∅, period, [], []⟩ creds now = .ok start) :
    start.Inv creds (declared creds) := by
  unfold setNodesCredentials at set
  split_ifs at set with valid
  cases set
  rw [foldl_setNodeCredentials]
  have keyedEntries : ∀ entry ∈ creds.entries, entry.2.kind = .interNode entry.1 :=
    fun entry member => keyed _ _ (Dict.mem_entries_iff.mp member)
  have looked (nodeName : String) : AList.lookup nodeName
      (creds.entries.foldl (fun nodes entry => nodes.insert entry.1
        (firstGuard period now entry.1 entry.2)) (∅ : Dict String DCredentialsResolveGuard)) =
      (creds.lookup nodeName).map (firstGuard period now nodeName) := Dict.lookup_mapEntries
  have counted := count_unresolved creds.nodupKeys keyedEntries
  refine ⟨fun nodeName guard found => ?_, fun nodeName absent => ?_, fun resolver member => ?_⟩
  · rw [looked] at found
    obtain ⟨cred, hcred, rfl⟩ := Option.map_eq_some_iff.mp found
    have known : declared creds nodeName = cred.address := by simp only [declared, hcred]
    have hvalid : cred.validateInternode = true :=
      List.all_eq_true.mp valid _ (List.mem_map_of_mem (Dict.mem_entries_iff.mpr hcred))
    refine
      { declared := ⟨cred, hcred, congrArg _ firstGuard_credentials.symm⟩
        kind := by rw [firstGuard_credentials]; exact keyed nodeName cred hcred
        address := by rw [firstGuard_credentials, known]
        reachable := fun none => ?_
        waits := fun progress => ?_
        outstanding := ?_ }
    · rw [firstGuard_credentials] at none
      rw [known]
      intro empty
      simp [DeclaredCredentials.validateInternode, none, empty] at hvalid
    · rw [firstGuard_credentials]
      exact (Bool.and_eq_true_iff.mp (firstGuard_inProgress_iff.mp progress)).2
    · have count := counted nodeName
      rw [← AList.lookup, hcred] at count
      rw [outstanding, List.nil_append, List.map_map]
      simp only [firstGuard_inProgress_iff]
      exact count
  · rw [looked, Option.map_eq_none_iff] at absent
    have count := counted nodeName
    rw [← AList.lookup, absent] at count
    refine ⟨absent, by simp only [declared, absent], ?_⟩
    rw [outstanding, List.nil_append, List.map_map]
    exact count
  · obtain ⟨entry, hentry, rfl⟩ := List.mem_map.mp ((List.nil_append _) ▸ member)
    obtain ⟨listed, without⟩ := List.mem_filter.mp hentry
    exact ⟨⟨_, keyedEntries entry listed⟩, (Bool.and_eq_true_iff.mp without).2, nofun⟩

/-! ## Inter-node authentication -/

/-- Resolvers have what they need: no event makes one panic. -/
theorem Inv.step_ne_error (inv : b.Inv creds known) (event : Event) (panic : Panic) :
    b.step event ≠ some (.error panic) := by
  intro stepped
  cases event with
  | check nodeName ip now => cases stepped
  | count index now =>
    obtain ⟨_, -, rest⟩ := Option.bind_eq_some_iff.mp stepped
    cases rest
  | lookup index answer =>
    obtain ⟨resolver, here, rest⟩ := Option.bind_eq_some_iff.mp stepped
    have hostname := (inv.resolvers resolver (List.mem_of_getElem? here)).hostname
    obtain ⟨name, named⟩ := Option.isSome_iff_exists.mp hostname
    simp only [Resolver.hostname, named] at rest
    split at rest
    · cases rest
    · rename_i failed
      cases failed
    · split at rest <;> cases rest
  | store index now =>
    obtain ⟨_, -, rest⟩ := Option.bind_eq_some_iff.mp stepped
    obtain ⟨_, -, rest⟩ := Option.bind_eq_some_iff.mp rest
    cases rest

/-- A request is let in by the addresses that are known of its node. -/
theorem Inv.checkNode_iff (inv : b.Inv creds known) {nodeName : String} {ip : Option SocketAddr}
    {now : ℕ} : (b.checkNode nodeName ip now).1 = true ↔
      ∃ peer, ip = some peer ∧ ∃ addr ∈ known nodeName, addr.ip = peer.ip := by
  unfold checkNode
  cases ip with
  | none => simp
  | some peer =>
    cases looked : b.nodes.lookup nodeName with
    | none => simp [(inv.missing nodeName looked).2.1]
    | some guard =>
      have here := inv.guarded nodeName guard looked
      simp [here.kind, here.address]

/-- The credentials of the nodes are set once, each under the name of its node. Then after any
interleaving of checks, lookups and resolvers that end: a guard is in progress if and only if
exactly one resolver for its node is outstanding, and there are never two; a node without host
name has none, and no resolver panics; a node that has an address keeps having one; and a request
in the name of a node gets permissions if and only if its peer address is among those declared
or stored last. -/
theorem internode_authentication {period : ℕ} {now : String → ℕ} {start : Basic}
    (keyed : ∀ nodeName cred, creds.lookup nodeName = some cred →
      cred.kind = .interNode nodeName)
    (set : Basic.setNodesCredentials ⟨∅, period, [], []⟩ creds now = .ok start)
    (run : Run (declared creds) start known b) :
    (∀ nodeName, b.outstanding nodeName ≤ 1 ∧ ∀ guard, b.nodes.lookup nodeName = some guard →
      (guard.resolveState = .inProgress ↔ b.outstanding nodeName = 1)) ∧
    (∀ nodeName cred, creds.lookup nodeName = some cred → cred.hostname = none →
      b.outstanding nodeName = 0) ∧
    (∀ event panic, b.step event ≠ some (.error panic)) ∧
    (∀ nodeName guard, b.nodes.lookup nodeName = some guard → guard.credentials.address ≠ [] →
      ∀ known' later, Run known b known' later → ∃ guard',
        later.nodes.lookup nodeName = some guard' ∧ guard'.credentials.address ≠ []) ∧
    ∀ common nodeName address now,
      (∃ permissions, b.checkCredentialsGrpc common ⟨address, some (.interNode nodeName)⟩ now =
        .ok permissions) ↔
        ∃ peer, address = some peer ∧ ∃ addr ∈ known nodeName, addr.ip = peer.ip := by
  have inv := ((inv_of_setNodesCredentials keyed set).run run).1
  refine ⟨fun nodeName => ?_, fun nodeName cred listed unnamed => ?_, inv.step_ne_error,
    fun nodeName guard looked some known' later more => ?_,
    fun common nodeName address now => ?_⟩
  · cases looked : b.nodes.lookup nodeName with
    | none => exact ⟨by rw [(inv.missing nodeName looked).2.2]; exact Nat.zero_le 1, nofun⟩
    | some guard =>
      have here := (inv.guarded nodeName guard looked).outstanding
      rw [here]
      refine ⟨by split_ifs <;> omega, fun guard' same => ?_⟩
      cases same
      split_ifs with progress <;> simp [progress]
  · cases looked : b.nodes.lookup nodeName with
    | none => exact (inv.missing nodeName looked).2.2
    | some guard =>
      have here := inv.guarded nodeName guard looked
      obtain ⟨cred', listed', sameName⟩ := here.declared
      cases listed.symm.trans listed'
      have idle : guard.resolveState ≠ .inProgress := fun progress => by
        have named := here.waits progress
        rw [← sameName, unnamed] at named
        cases named
      rw [here.outstanding, if_neg idle]
  · obtain ⟨inv', keeps⟩ := inv.run more
    have here := inv.guarded nodeName guard looked
    rw [here.address] at some
    cases looked' : later.nodes.lookup nodeName with
    | none => exact absurd (inv'.missing nodeName looked').2.1 (keeps nodeName some)
    | some guard' =>
      refine ⟨guard', rfl, ?_⟩
      rw [(inv'.guarded nodeName guard' looked').address]
      exact keeps nodeName some
  · rw [← @Inv.checkNode_iff _ _ _ inv _ _ now]
    simp only [checkCredentialsGrpc]
    split_ifs with admitted
    · exact iff_of_true ⟨_, rfl⟩ admitted
    · exact iff_of_false nofun admitted

/-- A node known by its host name only. -/
def namedNode : Dict String DeclaredCredentials :=
  (∅ : Dict String DeclaredCredentials).insert "alpha"
    ⟨[], some "alpha:20000", .interNode "alpha"⟩

def localAddress (port : UInt16) : SocketAddr := ⟨.v4 #v[127, 0, 0, 1], port⟩

/-- After a failed and a successful lookup, requests from the resolved address are let in, from
any port. -/
theorem resolved_node_is_let_in : ∃ start known b,
    Basic.setNodesCredentials ⟨∅, 1000, [], []⟩ namedNode (fun _ => 0) = .ok start ∧
    Run (declared namedNode) start known b ∧
    ∃ permissions, b.checkCredentialsGrpc (fun _ => .error .unauthorizedRequest)
      ⟨some (localAddress 5), some (.interNode "alpha")⟩ 7 = .ok permissions := by
  have keyed : ∀ nodeName cred, namedNode.lookup nodeName = some cred →
      cred.kind = .interNode nodeName := by
    intro nodeName cred found
    by_cases same : nodeName = "alpha"
    · subst same
      rw [namedNode, AList.lookup_insert] at found
      cases found
      rfl
    · rw [namedNode, AList.lookup_insert_ne same] at found
      cases found
  let guard : DCredentialsResolveGuard :=
    ⟨⟨[], some "alpha:20000", .interNode "alpha"⟩, .inProgress, 1000000000, 1000⟩
  let looking : Basic := ⟨(∅ : Dict String DCredentialsResolveGuard).insert "alpha" guard, 1000,
    [⟨⟨[], some "alpha:20000", .interNode "alpha"⟩, none⟩], []⟩
  have set : Basic.setNodesCredentials ⟨∅, 1000, [], []⟩ namedNode (fun _ => 0) = .ok looking := rfl
  have failed : looking.step (.lookup 0 none) = some (.ok looking) := rfl
  have found : looking.step (.lookup 0 (some [localAddress 1])) = some (.ok
      { looking with resolvers := [⟨⟨[], some "alpha:20000", .interNode "alpha"⟩,
        some [localAddress 1]⟩] }) := rfl
  have run : Run (declared namedNode) looking _ _ :=
    @Run.tail _ _ _ _ _ (.store 0 3) ((Run.refl.tail failed).tail found) rfl
  refine ⟨looking, _, _, set, run, ?_⟩
  obtain ⟨-, -, -, -, permitted⟩ := internode_authentication keyed set run
  exact (permitted _ _ _ _).mpr ⟨_, rfl, localAddress 1, List.mem_singleton_self _, rfl⟩

end Basic

end Bob.Access
