import Lighter.Fs.RegistrySound

/-!
# A nodeid stays valid

A nodeid resolves as long as more lookups were counted for it than the guest has given back.
Every step is one entry in the accounts of the nodeids, or none, and what the guest gives back
is what it was given: the lookups an inode has counted are then exactly those that are not
given back. A `forget` that finds the count at zero finds none of them gone. What can go wrong
is a lookup that is counted after the `forget` has looked: the lookup does not hold the lock
on the table. The law holds at every moment of a run exactly if no lookup is counted so.
-/

namespace Lighter.Fs.Registry

open Function State

/-- What is known of the lookups of a nodeid: whether it resolves, what its inode has counted,
what replies have named it by, what the guest has given back, and what it is kept by on
another's behalf. -/
@[ext] structure Account where
  listed : Bool
  lookups : Nat
  named : Nat
  forgotten : Nat
  kept : Nat

/-- What a step enters in the accounts. -/
inductive Entry where
  | nothing
  /-- A reply names the nodeid. -/
  | counted (id : Nat)
  /-- A new inode is in the table, and a reply names it. -/
  | added (id : Nat)
  /-- A new inode is in the table, on another's behalf. -/
  | lent (id : Nat)
  /-- The guest gives lookups back. -/
  | given (id count : Nat)
  /-- What an inode was kept by on another's behalf is given back. -/
  | released (id : Nat)
  /-- An inode is taken out of the table. -/
  | removed (id : Nat)

/-- What is given back comes off the count, unless it is the root's or nobody's. -/
def Account.less (account : Account) (id count : Nat) : Account :=
  { account with lookups :=
      if id = rootId ∨ account.listed = false then account.lookups else account.lookups - count }

/-- The accounts after an entry. -/
def Entry.post (ledger : Nat → Account) : Entry → Nat → Account
  | .nothing => ledger
  | .counted id => update ledger id
      { ledger id with lookups := (ledger id).lookups + 1, named := (ledger id).named + 1 }
  | .added id => update ledger id
      { ledger id with listed := true, lookups := 1, named := (ledger id).named + 1 }
  | .lent id => update ledger id { ledger id with listed := true, lookups := 1, kept := 1 }
  | .given id count => update ledger id
      { (ledger id).less id count with forgotten := (ledger id).forgotten + count }
  | .released id => update ledger id { (ledger id).less id 1 with kept := 0 }
  | .removed id => update ledger id { ledger id with listed := false }

namespace State

variable {sharding : Sharding} {state : State}

/-- The account of a nodeid. -/
def account (state : State) (id : Nat) : Account :=
  ⟨state.listed id, (state.inodes id).elim 0 (·.lookups), state.named id, state.forgotten id,
    state.kept id⟩

/-- What a step enters: a thread that waits for the lock on the table enters nothing, and a
`forget` that has found the count at zero takes the inode out if nothing is promised of it. -/
def entry (sharding : Sharding) (state : State) : Act → Entry
  | .go thread _ =>
      match state.threads thread with
      | .counting id | .recounting _ id => .counted id
      | .naming id =>
          if state.tableLock (sharding.shard id) = none ∧ state.listed id = true then .counted id
          else .nothing
      | .filing _ id =>
          if state.tableLock (sharding.shard id) = none then .added id else .nothing
      | .forgetting id count =>
          if state.tableLock (sharding.shard id) = none then .given id count else .nothing
      | .releasing id =>
          if state.tableLock (sharding.shard id) = none then .released id else .nothing
      | .removing id =>
          if (state.inodes id).any fun inode =>
              !(inode.pending || inode.promises || inode.promised) then .removed id
          else .nothing
      | _ => .nothing
  | .create _ => .added state.next
  | .forward old _ => if (state.inodes old).isSome then .lent state.next else .nothing
  | .call .. | .mark .. => .nothing

/-! ## What a step enters -/

/-- One inode changes. -/
theorem account_setInode (id : Nat) (changed : Inode) :
    (state.setInode id changed).account = update state.account id
      { state.account id with listed := changed.listed, lookups := changed.lookups } := by
  funext other
  by_cases same : other = id
  · subst same
    simp [account, setInode, listed, kept]
  · simp [account, setInode, listed, kept, same]

/-- An inode that changes in what it is promised only has the account it had. -/
theorem account_same {id : Nat} {inode changed : Inode} (there : state.inodes id = some inode)
    (listed : changed.listed = inode.listed) (lookups : changed.lookups = inode.lookups) :
    (state.setInode id changed).account = state.account := by
  rw [account_setInode, update_eq_self_iff]
  ext <;> simp [account, State.listed, there, listed, lookups]

theorem account_unmap (key : Key) (id : Nat) : (state.unmap key id).account = state.account := by
  unfold unmap
  split <;> rfl

/-- A lookup is counted for an inode that is there, in the table or out of it. -/
theorem account_count {id : Nat} (there : state.inodes id ≠ none) :
    (state.count id).account = (Entry.counted id).post state.account := by
  obtain ⟨inode, has⟩ := Option.ne_none_iff_exists'.mp there
  funext other
  by_cases same : other = id
  · subst same
    simp [account, count, listed, kept, Entry.post, has]
  · simp [account, count, listed, kept, Entry.post, same]

/-- The guest gives lookups back, before they come off the count. -/
theorem account_forgotten (id total : Nat) :
    { state with forgotten := update state.forgotten id total }.account =
      update state.account id { state.account id with forgotten := total } := by
  funext other
  by_cases same : other = id
  · subst same
    simp [account, listed, kept]
  · simp [account, listed, kept, same]

/-- An inode is no longer kept on another's behalf, before that comes off the count. -/
theorem account_released (id : Nat) :
    { state with owed := update state.owed id none }.account =
      update state.account id { state.account id with kept := 0 } := by
  funext other
  by_cases same : other = id
  · subst same
    simp [account, listed, kept]
  · simp [account, listed, kept, same]

/-- A `forget` as far as the count. -/
theorem account_giveBack (thread id count : Nat) :
    (state.giveBack sharding thread id count).account =
      update state.account id ((state.account id).less id count) := by
  have unchanged : id = rootId ∨ (state.account id).listed = false →
      state.account = update state.account id ((state.account id).less id count) := by
    intro exempt
    rw [Account.less, if_pos exempt, update_eq_self]
  unfold giveBack
  split
  case isTrue root => exact unchanged (.inl root)
  case isFalse other =>
    split
    case h_1 absent => exact unchanged (.inr (by simp [account, listed, absent]))
    case h_2 inode there =>
      have inside := listed_of_some there
      split
      case isTrue out => exact unchanged (.inr (by simpa [account, inside] using out))
      case isFalse within =>
        have counted : (state.setInode id
            { inode with lookups := inode.lookups - count }).account =
              update state.account id ((state.account id).less id count) := by
          rw [account_setInode]
          congr 1
          rw [Account.less, if_neg (by simp_all [account])]
          ext <;> simp [account, inside, there]
        dsimp only
        split <;> exact counted

/-- A `forget` that has found the count at zero takes the inode out, unless something is
promised of it. -/
theorem account_remove (sound : Sound sharding state) {thread id : Nat}
    (inside : state.listed id = true) :
    (state.remove sharding thread id).account =
      (if (state.inodes id).any fun inode =>
          !(inode.pending || inode.promises || inode.promised) then Entry.removed id
        else .nothing).post state.account := by
  unfold remove
  dsimp only
  split
  case h_1 absent =>
    rw [absent, Option.any_none, if_neg nofun]
    rfl
  case h_2 inode there =>
    rw [there, Option.any_some]
    split
    case isTrue busy => rw [if_neg (by grind)]; rfl
    case isFalse idle =>
      split
      case isTrue promised =>
        rw [if_neg (by grind)]
        exact account_same there rfl rfl
      case isFalse unpromised =>
        rw [if_pos (by grind)]
        rw [listed_of_some there] at inside
        have gone : (state.setInode id { inode with deferred := false, listed := false }).account =
            (Entry.removed id).post state.account := by
          rw [account_setInode, Entry.post]
          congr 1
          ext <;> simp [account, there]
        cases goes : inode.forwarded with
        | none =>
          rw [goes] at gone
          exact gone
        | some next =>
          -- The lookup it kept another by is owed by the thread now, and still kept.
          rw [goes] at gone
          rw [← gone]
          have owed := sound.forwards id inode next there inside goes
          funext other
          by_cases same : other = next
          · subst same
            simp [account, setThread, setInode, setTableLock, listed, kept, owed]
          · simp [account, setThread, setInode, setTableLock, listed, kept, same]

/-- A new inode is put in the table, with one lookup that a reply names it by. -/
theorem account_added {id next : Nat} (key : Key) (pending : Bool) :
    { state.setInode id (fresh key pending) with
      next := next
      named := update state.named id (state.named id + 1) }.account =
        (Entry.added id).post state.account := by
  funext other
  by_cases same : other = id
  · subst same
    simp [account, setInode, listed, kept, fresh, Entry.post]
  · simp [account, setInode, listed, kept, Entry.post, same]

/-- A thread's step enters what `entry` says. -/
theorem go_account (sound : Sound sharding state) (thread : Nat) (same : Bool) :
    (state.go sharding thread same).account =
      (state.entry sharding (.go thread same)).post state.account := by
  have free : Sound sharding (state.setThread thread .idle) := sound.idle thread
  unfold State.go entry
  dsimp only
  cases phase : state.threads thread with
  | idle | minting key => rfl
  | seeking key | fetching key id | finding key id | entering key =>
    dsimp only
    split
    · rfl
    · split <;> rfl
  | checking key id | comparing key id =>
    dsimp only
    split <;> rfl
  | retiring key id =>
    dsimp only
    split
    · rfl
    · exact account_unmap key id
  | counting id | recounting key id =>
    exact account_count (sound.counts thread id (by rw [phase]; rfl))
  | filing key id =>
    dsimp only
    split
    case isTrue locked => rfl
    case isFalse unlocked =>
      rw [if_pos (of_not_not unlocked)]
      exact account_added key false
  | naming id =>
    dsimp only
    split
    case isTrue locked => rw [if_neg (fun free => locked free.1)]; rfl
    case isFalse unlocked =>
      split
      case isTrue inside =>
        rw [if_pos ⟨of_not_not unlocked, inside⟩]
        exact account_count (there_of_listed inside)
      case isFalse outside => rw [if_neg (fun free => outside free.2)]; rfl
  | forgetting id count =>
    dsimp only
    split
    case isTrue locked => rfl
    case isFalse unlocked =>
      have given : { state.setThread thread .idle with
          forgotten := update state.forgotten id (state.forgotten id + count) }.account = _ :=
        account_forgotten id _
      rw [if_pos (of_not_not unlocked), account_giveBack, given, update_self, update_idem]
      rfl
  | releasing id =>
    dsimp only
    split
    case isTrue locked => rfl
    case isFalse unlocked =>
      have released : { state.setThread thread .idle with
          owed := update state.owed id none }.account = _ := account_released id
      rw [if_pos (of_not_not unlocked), account_giveBack, released, update_self, update_idem]
      rfl
  | removing id =>
    exact account_remove free (sound.removes thread id (by rw [phase]; rfl)).2.1
  | unmapping id key forwarded =>
    dsimp only
    split
    · rfl
    · split <;> exact account_unmap key id

/-- Every step enters what `entry` says. -/
theorem step_account (sound : Sound sharding state) (act : Act) :
    (state.step sharding act).account = (state.entry sharding act).post state.account := by
  cases act with
  | call thread call =>
    unfold State.step
    dsimp only
    split <;> rfl
  | go thread same => exact go_account sound thread same
  | mark id pending promises promised =>
    unfold State.step
    dsimp only
    split
    · rfl
    case h_2 inode there => exact account_same there rfl rfl
  | create key => exact account_added key true
  | forward old key =>
    unfold State.step entry
    dsimp only
    split
    case h_1 absent => rw [absent]; rfl
    case h_2 inode there =>
      rw [there, Option.isSome_some, if_pos rfl]
      have apart : old ≠ state.next := Nat.ne_of_lt (sound.below there)
      funext other
      by_cases new : other = state.next
      · subst new
        simp [account, setInode, listed, kept, fresh, Entry.post, apart.symm]
      by_cases same : other = old
      · subst same
        simp [account, setInode, listed, kept, Entry.post, new, there]
      · simp [account, setInode, listed, kept, Entry.post, new, same]

/-- What is so before an entry: a new inode's nodeid is not in use, what is released was kept,
and an inode that is taken out has counted since `forget` looked what it has counted at all. -/
def Fits (state : State) : Entry → Prop
  | .added id | .lent id => state.listed id = false ∧ state.named id = 0 ∧ state.kept id = 0
  | .released id => state.kept id = 1
  | .removed id => state.listed id = true ∧ (state.account id).lookups = state.since id ∧
      ∃ thread, (state.threads thread).removes = some id
  | _ => True

theorem entry_fits (sound : Sound sharding state) (act : Act) :
    state.Fits (state.entry sharding act) := by
  have blank : ∀ id, state.inodes id = none →
      state.listed id = false ∧ state.named id = 0 ∧ state.kept id = 0 := by
    intro id absent
    obtain ⟨unnamed, unowed⟩ := sound.blank id absent
    exact ⟨by rw [listed, absent, Option.any_none], unnamed, by rw [kept, unowed]⟩
  cases act with
  | call thread call | mark id pending promises promised => trivial
  | create key => exact blank _ (sound.unused _ (Nat.le_refl _))
  | forward old key =>
    unfold entry
    dsimp only
    split
    · exact blank _ (sound.unused _ (Nat.le_refl _))
    · trivial
  | go thread same =>
    unfold entry
    dsimp only
    cases phase : state.threads thread with
    | filing key id =>
      dsimp only
      split
      · exact blank id (sound.files thread id (by rw [phase]; rfl)).2
      · trivial
    | releasing id =>
      dsimp only
      split
      · change state.kept id = 1
        rw [kept, sound.owes thread id (by rw [phase]; rfl)]
      · trivial
    | removing id =>
      have removes : (state.threads thread).removes = some id := by rw [phase]; rfl
      obtain ⟨-, inside, looked⟩ := sound.removes thread id removes
      dsimp only
      split
      · obtain ⟨inode, there⟩ := Option.ne_none_iff_exists'.mp (there_of_listed inside)
        refine ⟨inside, ?_, thread, removes⟩
        rw [account, there]
        exact looked inode there
      · trivial
    | naming id | forgetting id count =>
      dsimp only
      split <;> trivial
    | idle | seeking key | fetching key id | checking key id | retiring key id | counting id
    | entering key | finding key id | comparing key id | recounting key id | minting key
    | unmapping id key forwarded => trivial

/-! ## The law -/

/-- A nodeid resolves until the guest has given back as many lookups as replies have named it. -/
def Valid (state : State) : Prop :=
  ∀ id, state.forgotten id < state.named id → state.listed id = true

/-- A lookup that is counted finds the inode in the table, and an inode is taken out of it only
if no lookup was counted since `forget` looked at the count. -/
def Timely (sharding : Sharding) (state : State) (act : Act) : Prop :=
  match state.entry sharding act with
  | .counted id => state.listed id = true
  | .removed id => state.since id = 0
  | _ => True

/-- The guest gives back no more than it was given. -/
def Honest (sharding : Sharding) (state : State) (act : Act) : Prop :=
  match state.entry sharding act with
  | .given id count => state.forgotten id + count ≤ state.named id
  | _ => True

/-- A timely step leaves the law standing, whatever the guest gives back. -/
theorem valid_step (sound : Sound sharding state) (valid : Valid state) {act : Act}
    (timely : Timely sharding state act) : Valid (state.step sharding act) := by
  have fits := entry_fits sound act
  intro id outstanding
  have before : (state.account id).forgotten < (state.account id).named →
      (state.account id).listed = true := valid id
  have after := congrFun (step_account sound act) id
  change ((state.step sharding act).account id).forgotten <
    ((state.step sharding act).account id).named at outstanding
  change ((state.step sharding act).account id).listed = true
  rw [after] at outstanding ⊢
  unfold Timely at timely
  cases entry : state.entry sharding act with
  | nothing =>
    rw [entry] at outstanding
    exact before outstanding
  | counted other =>
    rw [entry] at outstanding timely
    simp only [Entry.post, update_apply] at outstanding ⊢
    split
    case isTrue same => exact timely
    case isFalse apart =>
      rw [if_neg apart] at outstanding
      exact before outstanding
  | added other | lent other | given other count | released other =>
    rw [entry] at outstanding
    simp only [Entry.post, Account.less, update_apply] at outstanding ⊢
    grind
  | removed other =>
    rw [entry] at outstanding timely fits
    simp only [Entry.post, update_apply] at outstanding ⊢
    split
    case isTrue same =>
      -- Nothing was counted since `forget` looked, so every lookup was given back.
      subst same
      obtain ⟨inside, looked, -⟩ := fits
      obtain ⟨inode, there⟩ := Option.ne_none_iff_exists'.mp (there_of_listed inside)
      have enough := sound.enough id inode there (by rwa [listed_of_some there] at inside)
      have counted : inode.lookups = 0 := by
        rw [account, there] at looked
        exact looked.trans timely
      rw [if_pos rfl] at outstanding
      change state.forgotten id < state.named id at outstanding
      omega
    case isFalse apart =>
      rw [if_neg apart] at outstanding
      exact before outstanding

/-! ## When the guest is honest -/

/-- A `forget` goes on to remove an inode only if that is in the table with its count at zero. -/
theorem giveBack_removes {thread id count other target : Nat}
    (removes : ((state.giveBack sharding thread id count).threads other).removes = some target) :
    (state.threads other).removes = some target ∨
      (target ≠ rootId ∧ ((state.giveBack sharding thread id count).account target).listed = true ∧
        ((state.giveBack sharding thread id count).account target).lookups = 0) := by
  rw [account_giveBack]
  unfold giveBack at removes
  split at removes
  · exact .inl removes
  case isFalse notRoot =>
    split at removes
    · exact .inl removes
    case h_2 inode there =>
      have inside := listed_of_some there
      split at removes
      · exact .inl removes
      case isFalse within =>
        dsimp only at removes
        split at removes
        · exact .inl removes
        case isFalse zero =>
          simp only [setThread, update_apply] at removes
          split at removes
          · cases removes
            refine .inr ?_
            simp_all [Account.less, account]
          · exact .inl removes

/-- A thread that removes an inode was at it before the step, or has just found the count at
zero. -/
theorem removes_step (act : Act) {thread id : Nat}
    (removes : ((state.step sharding act).threads thread).removes = some id) :
    (state.threads thread).removes = some id ∨
      (id ≠ rootId ∧ ((state.step sharding act).account id).listed = true ∧
        ((state.step sharding act).account id).lookups = 0) := by
  have moved : ∀ {state : State} {mover : Nat} {phase : Phase}, phase.removes = none →
      ((state.setThread mover phase).threads thread).removes = some id →
        (state.threads thread).removes = some id := by
    intro state mover phase none
    simp only [setThread, update_apply]
    grind
  cases act with
  | call mover call =>
    unfold State.step at removes
    dsimp only at removes
    split at removes
    · exact .inl (moved (by cases call <;> rfl) removes)
    · exact .inl removes
  | mark | create | forward => exact .inl (by grind [State.step, setInode])
  | go mover same =>
    unfold State.step State.go at removes ⊢
    dsimp only at removes ⊢
    cases phase : state.threads mover with
    | forgetting other count | releasing other =>
      rw [phase] at removes
      dsimp only at removes ⊢
      split at removes
      · exact .inl removes
      case isFalse unlocked =>
        rw [if_neg unlocked]
        exact (giveBack_removes removes).imp (moved rfl) (fun found => found)
    | _ =>
      rw [phase] at removes
      dsimp only at removes
      refine .inl ?_
      grind [setThread, count, remove, unmap, setInode, setTableLock, setIdentityLock,
        Phase.removes, update_apply]

/-- While the guest is honest the lookups of an inode in the table are accounted for exactly,
but for the root's, which are not given back. -/
structure Exact (state : State) : Prop where
  fair : ∀ id, state.forgotten id ≤ state.named id
  exact : ∀ id, id ≠ rootId → state.listed id = true →
    (state.account id).lookups + state.forgotten id = state.named id + state.kept id
  /-- What is about to be removed is not kept on another's behalf. -/
  looked : ∀ thread id, (state.threads thread).removes = some id →
    id ≠ rootId ∧ state.kept id = 0

/-- An honest step leaves the accounts exact. -/
theorem exact_step (sound : Sound sharding state) (exact : Exact state) {act : Act}
    (honest : Honest sharding state act) : Exact (state.step sharding act) := by
  have fits := entry_fits sound act
  have after := step_account sound act
  unfold Honest at honest
  have fair : ∀ id, ((state.step sharding act).account id).forgotten ≤
      ((state.step sharding act).account id).named := by
    intro id
    have before : (state.account id).forgotten ≤ (state.account id).named := exact.fair id
    rw [after]
    cases entry : state.entry sharding act with
    | nothing => exact before
    | _ =>
      rw [entry] at honest
      simp only [Entry.post, Account.less, update_apply]
      grind [account]
  have balance : ∀ id, id ≠ rootId → ((state.step sharding act).account id).listed = true →
      ((state.step sharding act).account id).lookups +
        ((state.step sharding act).account id).forgotten =
      ((state.step sharding act).account id).named +
        ((state.step sharding act).account id).kept := by
    intro id notRoot
    have before : (state.account id).listed = true → (state.account id).lookups +
      (state.account id).forgotten = (state.account id).named + (state.account id).kept :=
        exact.exact id notRoot
    have paid : (state.account id).forgotten ≤ (state.account id).named := exact.fair id
    rw [after]
    cases entry : state.entry sharding act with
    | nothing => exact before
    | _ =>
      rw [entry] at honest fits
      simp only [Entry.post, Account.less, update_apply]
      grind [Fits, account]
  refine ⟨fair, balance, fun thread id removes => ?_⟩
  rcases removes_step act removes with earlier | ⟨notRoot, inside, zero⟩
  · obtain ⟨notRoot, unkept⟩ := exact.looked thread id earlier
    refine ⟨notRoot, ?_⟩
    have inside := (sound.removes thread id earlier).2.1
    change ((state.step sharding act).account id).kept = 0
    rw [after]
    cases entry : state.entry sharding act with
    | nothing => exact unkept
    | _ =>
      rw [entry] at fits
      simp only [Entry.post, Account.less, update_apply]
      grind [Fits, account]
  · have equal := balance id notRoot inside
    have paid := fair id
    exact ⟨notRoot, by change ((state.step sharding act).account id).kept = 0; omega⟩

/-- While the guest is honest a step leaves the law standing exactly if it is timely. -/
theorem valid_step_iff (sound : Sound sharding state) (exact : Exact state) (valid : Valid state)
    (act : Act) : Valid (state.step sharding act) ↔ Timely sharding state act := by
  refine ⟨fun still => ?_, valid_step sound valid⟩
  have after := step_account sound act
  have fits := entry_fits sound act
  have law : ∀ id, ((state.step sharding act).account id).forgotten <
      ((state.step sharding act).account id).named →
        ((state.step sharding act).account id).listed = true := still
  rw [after] at law
  unfold Timely
  cases entry : state.entry sharding act with
  | counted id =>
    rw [entry] at law
    have here := law id
    simp only [Entry.post, update_self] at here
    exact here (Nat.lt_succ_of_le (exact.fair id))
  | removed id =>
    -- The count that `forget` found at zero is what was counted since: a lookup that a reply
    -- has named the inode by, and that is not given back.
    rw [entry] at law fits
    obtain ⟨inside, looked, thread, removes⟩ := fits
    obtain ⟨notRoot, unkept⟩ := exact.looked thread id removes
    have balance := exact.exact id notRoot inside
    have here := law id
    simp only [Entry.post, update_self] at here
    by_contra counted
    refine absurd (here ?_) nofun
    change state.forgotten id < state.named id
    change state.since id ≠ 0 at counted
    omega
  | nothing | added id | lent id | given id count | released id => trivial

theorem Exact.start (root : Key) : Exact (State.start root) where
  fair := fun _ => Nat.le_refl 0
  exact := by
    intro id notRoot inside
    simp [listed, State.start, notRoot] at inside
  looked := nofun

end State

open State in
/-- Whatever the threads do, and whenever: every nodeid resolves until the guest has given back
the lookups that replies have named it by, at every moment of a run, if every lookup is counted
for an inode that is in the table, and every inode that is taken out of it had none counted
since `forget` looked at the count. With a guest that gives back no more than it was given,
it does so only then. -/
theorem nodeids_resolve_iff (sharding : Sharding) (root : Key) (acts : List Act) :
    (Transition.Legal (Timely sharding) (State.step sharding) (State.start root) acts →
      ∀ earlier, earlier <+: acts →
        Valid (Transition.run (State.step sharding) (State.start root) earlier)) ∧
    (Transition.Legal (Honest sharding) (State.step sharding) (State.start root) acts →
      ((∀ earlier, earlier <+: acts →
        Valid (Transition.run (State.step sharding) (State.start root) earlier)) ↔
      Transition.Legal (Timely sharding) (State.step sharding) (State.start root) acts)) := by
  have valid : Valid (State.start root) := fun id outstanding =>
    absurd outstanding (Nat.lt_irrefl 0)
  constructor
  · rintro timely earlier ⟨later, rfl⟩
    have soFar := ((Transition.legal_append _ _ _ earlier later).mp timely).1
    exact (Transition.run_invariant (Timely sharding) (State.step sharding)
      (fun state => Sound sharding state ∧ Valid state)
      (fun _ act ⟨sound, valid⟩ timely => ⟨sound.step act, valid_step sound valid timely⟩)
      _ earlier ⟨Sound.start root, valid⟩ soFar).2
  · intro honest
    refine Transition.holds_throughout_iff_of_legal (Timely sharding) (State.step sharding)
      (fun state act => (Sound sharding state ∧ Exact state) ∧ Honest sharding state act) Valid
      (fun state act ready valid => valid_step_iff ready.1.1 ready.1.2 valid act) _ acts ?_ valid
    exact Transition.Legal.holding _ _
      (fun _ act ⟨sound, exact⟩ honest => ⟨sound.step act, exact_step sound exact honest⟩)
      ⟨Sound.start root, Exact.start root⟩ honest

namespace Forgotten

/-- Every number has a shard of its own. -/
def sharding : Sharding := ⟨id, id⟩

def root : Key := (1, 2)

def file : Key := (1, 3)

/-- A file is looked up, and the guest is given its nodeid. -/
def found : List Act := .call 0 (.insert file) :: List.replicate 3 (.go 0 true)

/-- One thread looks it up again, and has the inode. The guest gives back the lookup it had,
and another thread takes the inode out of the table. The first counts a lookup, and names a
nodeid that no longer resolves. -/
def counted : List Act :=
  found ++ .call 1 (.relookup file) :: List.replicate 3 (.go 1 true) ++
    .call 0 (.forget 2 1) :: List.replicate 2 (.go 0 true) ++ [.go 1 true]

/-- The same when it is counted after the count was looked at, and before the inode is out. -/
def between : List Act :=
  found ++ .call 1 (.relookup file) :: List.replicate 3 (.go 1 true) ++
    [.call 0 (.forget 2 1), .go 0 true, .go 1 true, .go 0 true]

/-- In both runs a reply names nodeid 2, and the guest, which has not given that lookup back,
finds it gone. -/
theorem nodeid_removed :
    (¬ State.Valid (Transition.run (State.step sharding) (State.start root) counted)) ∧
      ¬ State.Valid (Transition.run (State.step sharding) (State.start root) between) := by
  constructor
  · intro valid
    exact absurd (valid 2 (by decide +kernel)) (by decide +kernel)
  · intro valid
    exact absurd (valid 2 (by decide +kernel)) (by decide +kernel)

instance (sharding : Sharding) (state : State) (act : Act) :
    Decidable (State.Timely sharding state act) := by
  unfold State.Timely
  split <;> infer_instance

instance (sharding : Sharding) (state : State) (act : Act) :
    Decidable (State.Honest sharding state act) := by
  unfold State.Honest
  split <;> infer_instance

/-- Two threads look the file up again, one of them while the guest gives back the lookup it
had. That comes off the count, and the nodeid stays. The guest gives the rest back, and the
inode goes once nothing is left; a thread that comes then finds it gone, and makes a new one. -/
def shared : List Act :=
  found ++ [.call 1 (.relookup file), .go 1 true, .go 1 true, .call 2 (.insert file),
    .call 0 (.forget 2 1), .go 1 true, .go 2 true, .go 1 true, .go 0 true, .go 2 true, .go 2 true,
    .go 2 true, .call 1 (.countLookup 2), .go 1 true, .call 0 (.forget 2 3), .go 0 true,
    .call 1 (.relookup file), .go 1 true, .go 0 true, .go 1 true, .go 0 true] ++
  .call 2 (.insert file) :: List.replicate 3 (.go 2 true)

/-- An honest guest's nodeid resolves at every moment of that run: it is named four times, and
still resolves when one lookup is given back, and is gone when the other three are. -/
theorem nodeids_resolve_iff_shared :
    Transition.Legal (State.Honest sharding) (State.step sharding) (State.start root) shared ∧
    (Transition.run (State.step sharding) (State.start root) shared).named 2 = 4 ∧
    (Transition.run (State.step sharding) (State.start root) shared).forgotten 2 = 4 ∧
    (Transition.run (State.step sharding) (State.start root) shared).listed 2 = false ∧
    (Transition.run (State.step sharding) (State.start root) shared).listed 3 = true ∧
    ∀ earlier, earlier <+: shared →
      State.Valid (Transition.run (State.step sharding) (State.start root) earlier) := by
  have honest : Transition.Legal (State.Honest sharding) (State.step sharding)
      (State.start root) shared := by decide +kernel
  refine ⟨honest, by decide +kernel, by decide +kernel, by decide +kernel, by decide +kernel, ?_⟩
  exact ((nodeids_resolve_iff sharding root shared).2 honest).mpr (by decide +kernel)

end Forgotten
end Lighter.Fs.Registry
