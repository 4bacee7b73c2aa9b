import RedisAllocator.Objects.Leases

/-!
# Keys that are kept by heartbeats

Non-shared mode.  A client that works longer than its timeout sends heartbeats,
`RedisAllocatorObject.update`, and releases its object at the end.  A heartbeat sets
the lock whoever has it, so all rests on its coming in time: as long as it does, no
key has two tenants, the pool stays well formed, and a key that is released goes back
to the free list.
-/

set_option autoImplicit false

namespace RedisAllocator

open AbortableScript AbortableScript.Script LabelledRun

/-! ## Clients with objects -/

/-- A client with the key of an object that it has not released, the name it asked for, and the
deadline of the lock it set last, if any. -/
structure Tenant (Client : Type) where
  client : Client
  key : String
  name : Option String
  deadline : Option Nat
deriving DecidableEq

structure Tenancy (Client : Type) where
  redis : Redis
  tenants : List (Tenant Client)

inductive Conduct (Client : Type)
  | malloc (client : Client) (timeout : Timeout) (name : Option String) (cacheTimeout : Timeout)
  /-- `object.update(seconds)` -/
  | heartbeat (tenant : Tenant Client) (seconds : Int)
  /-- `object.release(timeout)`, also at the end of a `with` block -/
  | leave (tenant : Tenant Client) (timeout : Int)
  | upkeep (call : Call)

def Tenancy.advance {Client : Type} (tenancy : Tenancy Client) (elapsed : Nat) : Tenancy Client :=
  ⟨tenancy.redis.advance elapsed, tenancy.tenants⟩

structure ConductEvent (Client : Type) where
  before : Tenancy Client
  conduct : Conduct Client

section Tenancy

variable {Client : Type} [DecidableEq Client]

def Tenant.object (tenant : Tenant Client) : AllocatorObject := ⟨tenant.key, tenant.name, false⟩

def Tenant.lock (tenant : Tenant Client) : StringKey := ⟨"1", tenant.deadline⟩

def Tenant.Current (tenant : Tenant Client) (now : Nat) : Prop := tenant.lock.live now = true

namespace ConductEvent

variable (event : ConductEvent Client)

def now : Nat := event.before.redis.now

/-- The commands that reach Redis: one, or none where the method sends none. -/
def steps : List Step :=
  match event.conduct with
  | .malloc _ timeout name cacheTimeout => [.pool (.mallocKey timeout name cacheTimeout)]
  | .heartbeat tenant seconds => tenant.object.update (.int seconds)
  | .leave tenant timeout => tenant.object.release timeout
  | .upkeep call => [.pool call]

def script (allocator : Allocator) : LuaScript (Option String) :=
  match event.steps.head? with
  | some step => step.script allocator
  | none => pure none

def reply (allocator : Allocator) : Except Failure (Option String) :=
  (event.script allocator event.before.redis).1

def tenantsAfter (allocator : Allocator) : List (Tenant Client) :=
  match event.conduct with
  | .malloc client timeout name _ =>
    match event.reply allocator with
    | .ok (some k) =>
      event.before.tenants ++
        [⟨client, k, name, (event.before.redis.mallocLock timeout.wholeSeconds).expireAt⟩]
    | _ => event.before.tenants
  | .heartbeat tenant seconds =>
    event.before.tenants.erase tenant ++
      [{ tenant with deadline := some (event.before.redis.deadline seconds) }]
  | .leave tenant _ => event.before.tenants.erase tenant
  | .upkeep _ => event.before.tenants

def after (allocator : Allocator) : Tenancy Client :=
  ⟨(event.script allocator event.before.redis).2, event.tenantsAfter allocator⟩

/-- Clients use the objects they have, and `free_keys` is left to `release`. -/
def Permitted : Prop :=
  match event.conduct with
  | .malloc _ _ _ _ => True
  | .heartbeat tenant _ => tenant ∈ event.before.tenants
  | .leave tenant _ => tenant ∈ event.before.tenants
  | .upkeep call => call.Admissible event.before.redis ∧
    (∀ timeout name cacheTimeout, call ≠ .mallocKey timeout name cacheTimeout) ∧
    ∀ keys timeout, call ≠ .freeKeys keys timeout

/-- A heartbeat, with a positive timeout, and a release come while the tenant's lock lasts; nobody
puts a tenant's key into the pool anew. -/
def Timely : Prop :=
  match event.conduct with
  | .malloc _ _ _ _ => True
  | .heartbeat tenant seconds => 0 < seconds ∧ tenant.Current event.now
  | .leave tenant _ => tenant.Current event.now
  | .upkeep call => ∀ tenant ∈ event.before.tenants, tenant.Current event.now →
    ¬ Event.Inserts false ⟨event.before.redis, call⟩ tenant.key

end ConductEvent

def TenancyStep (allocator : Allocator) (tenancy : Tenancy Client) (event : ConductEvent Client)
    (tenancy' : Tenancy Client) : Prop :=
  (∃ elapsed, event.before = tenancy.advance elapsed) ∧ event.Permitted ∧
    tenancy' = event.after allocator

abbrev TenancyRun (allocator : Allocator) : Tenancy Client → List (ConductEvent Client) →
    Tenancy Client → Prop := Run (TenancyStep allocator)

/-! ## One tenant a key -/

/-- Every tenant in time has its lock, on a key of its own. -/
structure Tenancy.Undisputed (tenancy : Tenancy Client) : Prop where
  sound : ∃ p, AllSound tenancy.redis p
  held : ∀ tenant ∈ tenancy.tenants, HeldUntil tenant.key tenant.lock tenancy.redis
  alone : tenancy.tenants.Pairwise fun a b =>
    a.Current tenancy.redis.now → b.Current tenancy.redis.now → a.key ≠ b.key

section Step

variable {allocator : Allocator} {tenancy tenancy' : Tenancy Client} {event : ConductEvent Client}
  {tenant : Tenant Client}

omit [DecidableEq Client] in
theorem Tenancy.Undisputed.advance (undisputed : tenancy.Undisputed) (elapsed : Nat) :
    (tenancy.advance elapsed).Undisputed := by
  obtain ⟨⟨p, sound⟩, held, alone⟩ := undisputed
  refine ⟨⟨p, sound.advance elapsed⟩, fun tenant member => (held tenant member).advance elapsed,
    alone.imp fun {a b} apart currentA currentB => ?_⟩
  exact apart (a.lock.live_antitone currentA) (b.lock.live_antitone currentB)

theorem Tenancy.Undisputed.apart (undisputed : tenancy.Undisputed)
    (member : tenant ∈ tenancy.tenants) (current : tenant.Current tenancy.redis.now) :
    ∀ other ∈ tenancy.tenants.erase tenant, other.Current tenancy.redis.now →
      tenant.key ≠ other.key := by
  have symmetric {a b : Tenant Client}
      (apart : a.Current tenancy.redis.now → b.Current tenancy.redis.now → a.key ≠ b.key) :
      b.Current tenancy.redis.now → a.Current tenancy.redis.now → b.key ≠ a.key :=
    fun currentB currentA => (apart currentA currentB).symm
  have front := (List.perm_cons_erase member).pairwise_iff symmetric |>.mp undisputed.alone
  intro other inOthers currentOther
  exact (List.pairwise_cons.mp front).1 other inOthers current currentOther

omit [DecidableEq Client] in
theorem Tenancy.Undisputed.call (undisputed : tenancy.Undisputed) (call : Call)
    (admissible : call.Admissible tenancy.redis) {kept : List (Tenant Client)}
    (sublist : kept.Sublist tenancy.tenants)
    (spared : ∀ tenant ∈ kept, tenant.Current tenancy.redis.now →
      ¬ Event.Frees ⟨tenancy.redis, call⟩ tenant.key ∧
        ¬ Event.Inserts false ⟨tenancy.redis, call⟩ tenant.key) :
    Tenancy.Undisputed ⟨Event.after false ⟨tenancy.redis, call⟩, kept⟩ := by
  obtain ⟨⟨p, sound⟩, held, alone⟩ := undisputed
  obtain ⟨_, p', sound', _⟩ := call_sound sound false call admissible fun _ _ _ _ _ => trivial
  have now := @Event.now_after ⟨tenancy.redis, call⟩ admissible
  refine ⟨⟨p', sound'⟩, fun tenant member => ?_, ?_⟩
  · by_cases current : tenant.Current tenancy.redis.now
    · obtain ⟨notFreed, notInserted⟩ := spared tenant member current
      exact HeldUntil.after (held tenant (sublist.subset member)) admissible notFreed notInserted
    · exact .of_lapsed (Bool.eq_false_iff.mpr current) now
  · rw [now]
    exact alone.sublist sublist

omit [DecidableEq Client] in
theorem Tenancy.Undisputed.snoc (undisputed : tenancy.Undisputed)
    (held : HeldUntil tenant.key tenant.lock tenancy.redis)
    (apart : ∀ other ∈ tenancy.tenants, other.Current tenancy.redis.now →
      other.key ≠ tenant.key) :
    Tenancy.Undisputed ⟨tenancy.redis, tenancy.tenants ++ [tenant]⟩ := by
  refine ⟨undisputed.sound, fun other member => ?_, ?_⟩
  · rcases List.mem_append.mp member with old | new
    · exact undisputed.held other old
    · rwa [List.mem_singleton.mp new]
  · refine List.pairwise_append.mpr ⟨undisputed.alone, List.pairwise_singleton .., ?_⟩
    intro other old new isNew current _
    rw [List.mem_singleton.mp isNew]
    exact apart other old current

theorem ConductEvent.after_pool (nonShared : allocator.shared = false) (call : Call)
    (steps : event.steps = [.pool call]) :
    event.reply allocator = Event.reply false ⟨event.before.redis, call⟩ ∧
      (event.after allocator).redis = Event.after false ⟨event.before.redis, call⟩ := by
  have script : event.script allocator = call.perform false := by
    rw [ConductEvent.script, steps, ← nonShared]
    rfl
  rw [reply, after, script]
  exact ⟨rfl, rfl⟩

theorem ConductEvent.after_heartbeat (allocator : Allocator) {seconds : Int}
    (beat : event.conduct = .heartbeat tenant seconds) (positive : 0 < seconds) :
    event.reply allocator = .ok none ∧ (event.after allocator).redis =
      event.before.redis.putLock tenant.key
        (some ⟨"1", some (event.before.redis.deadline seconds)⟩) := by
  have steps : event.steps = [.lockUpdate tenant.key "1" (.int seconds)] := by
    rw [ConductEvent.steps, beat]
    exact if_pos positive
  have sent : event.script allocator event.before.redis =
      (.ok none, event.before.redis.putLock tenant.key
        (some ⟨"1", some (event.before.redis.deadline seconds)⟩)) := by
    rw [ConductEvent.script, steps, List.head?_cons]
    simp only [Step.script]
    apply bind_ok
    rw [RedisAllocator.lockUpdate, pyExpire, pure_bind_apply, setLock_ex event.before.redis positive]
  rw [reply, after, sent]
  exact ⟨rfl, rfl⟩

theorem Tenancy.Undisputed.malloc (undisputed : event.before.Undisputed)
    (nonShared : allocator.shared = false) {client : Client} {timeout cacheTimeout : Timeout}
    {name : Option String} (conduct : event.conduct = .malloc client timeout name cacheTimeout) :
    (event.after allocator).Undisputed := by
  obtain ⟨reply, redis⟩ := event.after_pool nonShared (.mallocKey timeout name cacheTimeout)
    (by rw [ConductEvent.steps, conduct])
  have kept := undisputed.call (.mallocKey timeout name cacheTimeout) trivial
    (List.Sublist.refl _) fun tenant _ _ => by
      refine ⟨?_, ?_⟩
      · rintro ⟨_, _, other, _⟩
        cases other
      · rintro ⟨⟨_, _, other, _⟩ | ⟨_, _, _, _, other, _⟩, _⟩ <;> cases other
  have after : event.after allocator =
      ⟨Event.after false ⟨event.before.redis, .mallocKey timeout name cacheTimeout⟩,
        event.tenantsAfter allocator⟩ := by rw [← redis]; rfl
  rw [after, ConductEvent.tenantsAfter, conduct]
  simp only
  split
  · rename_i k returned
    have returns : Event.Returns false
        ⟨event.before.redis, .mallocKey timeout name cacheTimeout⟩ k := reply.symm.trans returned
    refine kept.snoc (Event.heldUntil_of_returns rfl returns) fun other member current same => ?_
    have now := @Event.now_after ⟨event.before.redis, .mallocKey timeout name cacheTimeout⟩ trivial
    have held := undisputed.held other member
    rw [same] at held
    have lapsed : other.lock.live event.before.redis.now = false := held.lapsed returns
    have still : other.lock.live event.before.redis.now = true := by
      rw [← now]
      exact current
    rw [lapsed] at still
    cases still
  · exact kept

theorem Tenancy.Undisputed.heartbeat (undisputed : event.before.Undisputed) {seconds : Int}
    (conduct : event.conduct = .heartbeat tenant seconds) (permitted : event.Permitted)
    (timely : event.Timely) : (event.after allocator).Undisputed := by
  rw [ConductEvent.Permitted, conduct] at permitted
  rw [ConductEvent.Timely, conduct] at timely
  obtain ⟨positive, current⟩ := timely
  obtain ⟨_, redis⟩ := event.after_heartbeat allocator conduct positive
  have after : event.after allocator =
      ⟨event.before.redis.putLock tenant.key
          (some ⟨"1", some (event.before.redis.deadline seconds)⟩),
        event.tenantsAfter allocator⟩ := by rw [← redis]; rfl
  rw [after, ConductEvent.tenantsAfter, conduct]
  have apart := undisputed.apart permitted current
  have locked := (undisputed.held tenant permitted).locked current
  have others : Tenancy.Undisputed ⟨event.before.redis.putLock tenant.key
      (some ⟨"1", some (event.before.redis.deadline seconds)⟩),
      event.before.tenants.erase tenant⟩ := by
    obtain ⟨⟨p, sound⟩, held, alone⟩ := undisputed
    refine ⟨⟨p, sound.rep.of_outside_pool rfl rfl rfl, fun k queued _ => ?_⟩, fun other member => ?_,
      alone.sublist List.erase_sublist⟩
    · have unlocked := sound.unlocked k queued trivial
      have different : k ≠ tenant.key := by
        rintro rfl
        rw [locked] at unlocked
        cases unlocked
      rwa [Redis.locked_putLock_of_ne _ different]
    · have before := held other (List.mem_of_mem_erase member)
      by_cases same : other.key = tenant.key
      · have lapsed : other.lock.live event.before.redis.now = false :=
          Bool.eq_false_iff.mpr fun live => apart other member live same.symm
        exact HeldUntil.of_lapsed lapsed rfl
      · exact before.of_lockOf (by simp [Redis.lockOf, Redis.putLock, same])
  refine others.snoc (fun _ => Function.update_self ..) fun other member live same => ?_
  exact apart other member live same.symm

theorem Tenancy.Undisputed.leave (undisputed : event.before.Undisputed)
    (nonShared : allocator.shared = false) {timeout : Int}
    (conduct : event.conduct = .leave tenant timeout) (permitted : event.Permitted)
    (timely : event.Timely) :
    (event.after allocator).Undisputed ∧ (event.after allocator).redis.IsBack tenant.key := by
  rw [ConductEvent.Permitted, conduct] at permitted
  rw [ConductEvent.Timely, conduct] at timely
  obtain ⟨_, redis⟩ := event.after_pool nonShared (.freeKeys [tenant.key] timeout)
    (by rw [ConductEvent.steps, conduct]; rfl)
  have after : event.after allocator =
      ⟨Event.after false ⟨event.before.redis, .freeKeys [tenant.key] timeout⟩,
        event.before.tenants.erase tenant⟩ := by
    rw [← redis, ConductEvent.after, ConductEvent.tenantsAfter, conduct]
  rw [after]
  refine ⟨undisputed.call (.freeKeys [tenant.key] timeout) trivial List.erase_sublist
    fun other member live => ⟨?_, ?_⟩, ?_⟩
  · rintro ⟨_, _, call, named⟩
    cases call
    exact undisputed.apart permitted timely other member live (List.mem_singleton.mp named).symm
  · rintro ⟨⟨_, _, other, _⟩ | ⟨_, _, _, _, other, _⟩, _⟩ <;> cases other
  · obtain ⟨p, sound⟩ := undisputed.sound
    have locked := (undisputed.held tenant permitted).locked timely
    have freed := freeKeys_completes sound.rep
      (fun k queued => sound.unlocked k queued trivial) [tenant.key] timeout
    rw [Event.after, Call.perform, discard_snd]
    apply freed.isBack
    · simp [Redis.locked, Redis.lock?, Redis.unlockAll]
    · exact FreePool.waits_giveBack _ (.inl locked)

theorem Tenancy.Undisputed.upkeep (undisputed : event.before.Undisputed)
    (nonShared : allocator.shared = false) {call : Call} (conduct : event.conduct = .upkeep call)
    (permitted : event.Permitted) (timely : event.Timely) :
    (event.after allocator).Undisputed := by
  rw [ConductEvent.Permitted, conduct] at permitted
  rw [ConductEvent.Timely, conduct] at timely
  obtain ⟨admissible, _, notFree⟩ := permitted
  obtain ⟨_, redis⟩ := event.after_pool nonShared call
    (by rw [ConductEvent.steps, conduct])
  have after : event.after allocator =
      ⟨Event.after false ⟨event.before.redis, call⟩, event.before.tenants⟩ := by
    rw [← redis, ConductEvent.after, ConductEvent.tenantsAfter, conduct]
  rw [after]
  refine undisputed.call call admissible (List.Sublist.refl _) fun tenant member current =>
    ⟨?_, timely tenant member current⟩
  rintro ⟨keys, timeout, isFree, _⟩
  exact notFree keys timeout isFree

theorem Tenancy.Undisputed.after (undisputed : event.before.Undisputed)
    (nonShared : allocator.shared = false) (permitted : event.Permitted) (timely : event.Timely) :
    (event.after allocator).Undisputed := by
  cases conduct : event.conduct with
  | malloc client timeout name cacheTimeout => exact undisputed.malloc nonShared conduct
  | heartbeat tenant seconds => exact undisputed.heartbeat conduct permitted timely
  | leave tenant timeout => exact (undisputed.leave nonShared conduct permitted timely).1
  | upkeep call => exact undisputed.upkeep nonShared conduct permitted timely

end Step

/-- As long as heartbeats and releases come in time, and no tenant's key is put into the pool anew,
each tenant in time has a key to itself and its lock on it, the pool is well formed, and a tenant
that leaves gives its key back. -/
theorem tenancy_undisputed {allocator : Allocator} (nonShared : allocator.shared = false)
    {start final : Tenancy Client} {events : List (ConductEvent Client)}
    (noEntry : start.redis.pool = ∅) (head : start.redis.headPointer = "")
    (tail : start.redis.tailPointer = "") (nobody : start.tenants = [])
    (run : TenancyRun allocator start events final) (timely : ∀ event ∈ events, event.Timely) :
    (final.tenants.Pairwise fun a b =>
      a.Current final.redis.now → b.Current final.redis.now → a.key ≠ b.key) ∧
    (∀ tenant ∈ final.tenants, tenant.Current final.redis.now →
      final.redis.locks tenant.key = some tenant.lock) ∧
    (∃ L, WellFormed final.redis L) ∧
    ∀ event ∈ events, ∀ tenant timeout, event.conduct = .leave tenant timeout →
      (event.after allocator).redis.IsBack tenant.key := by
  have keeps (tenancy : Tenancy Client) (event : ConductEvent Client) (tenancy' : Tenancy Client)
      (undisputed : tenancy.Undisputed) (timely : event.Timely)
      (step : TenancyStep allocator tenancy event tenancy') : tenancy'.Undisputed := by
    obtain ⟨⟨elapsed, later⟩, permitted, rfl⟩ := step
    exact Tenancy.Undisputed.after (later ▸ undisputed.advance elapsed) nonShared permitted timely
  have started : start.Undisputed := by
    refine ⟨⟨_, empty_sound noEntry head tail⟩, ?_, ?_⟩
    · rw [nobody]
      exact fun tenant member => by cases member
    · rw [nobody]
      exact .nil
  obtain ⟨⟨p, sound⟩, held, alone⟩ :=
    run.invariant Tenancy.Undisputed ConductEvent.Timely keeps started timely
  refine ⟨alone, held, ⟨_, sound.rep.wellFormed⟩, fun event inEvents tenant timeout leaves => ?_⟩
  obtain ⟨tenancy, tenancy', undisputed, ⟨elapsed, later⟩, permitted, _⟩ :=
    run.fired Tenancy.Undisputed ConductEvent.Timely keeps started timely event inEvents
  have undisputed' : event.before.Undisputed := later ▸ undisputed.advance elapsed
  exact (undisputed'.leave nonShared leaves permitted (timely event inEvents)).2

end Tenancy

/-! ## A heartbeat that keeps a key -/

/-- Client 1 gets the key for 30 seconds, and renews it after 20. -/
def beatStart : ConductEvent Nat := ⟨⟨Redis.empty 0, []⟩, .upkeep (.extend ["k"] none)⟩

def beatMalloc : ConductEvent Nat :=
  ⟨(beatStart.after (heartbeatAllocator false)).advance 1000, .malloc 1 (.int 30) none (.int 60)⟩

def beatBeat : ConductEvent Nat :=
  ⟨(beatMalloc.after (heartbeatAllocator false)).advance 20000,
    .heartbeat ⟨1, "k", none, some 31000⟩ 30⟩

def beatLeave : ConductEvent Nat :=
  ⟨(beatBeat.after (heartbeatAllocator false)).advance 20000,
    .leave ⟨1, "k", none, some 51000⟩ (-1)⟩

def beatNext : ConductEvent Nat :=
  ⟨beatLeave.after (heartbeatAllocator false), .malloc 2 (.int 30) none (.int 60)⟩

def beatEvents : List (ConductEvent Nat) := [beatStart, beatMalloc, beatBeat, beatLeave, beatNext]

theorem beat_run : TenancyRun (heartbeatAllocator false) ⟨Redis.empty 0, []⟩ beatEvents
    (beatNext.after (heartbeatAllocator false)) := by
  have renews : (⟨1, "k", none, some 31000⟩ : Tenant Nat) ∈ beatBeat.before.tenants := by decide
  have leaves : (⟨1, "k", none, some 51000⟩ : Tenant Nat) ∈ beatLeave.before.tenants := by decide
  exact .fire ⟨⟨0, rfl⟩, ⟨trivial, nofun, nofun⟩, rfl⟩ (.fire ⟨⟨1000, rfl⟩, trivial, rfl⟩
    (.fire ⟨⟨20000, rfl⟩, renews, rfl⟩ (.fire ⟨⟨20000, rfl⟩, leaves, rfl⟩
      (.fire ⟨⟨0, rfl⟩, trivial, rfl⟩ (.done _)))))

theorem beat_timely : ∀ event ∈ beatEvents, event.Timely := by
  intro event inEvents
  simp only [beatEvents, List.mem_cons, List.not_mem_nil, or_false] at inEvents
  rcases inEvents with rfl | rfl | rfl | rfl | rfl
  · exact fun tenant member => by cases member
  · trivial
  · exact ⟨by decide, rfl⟩
  · rfl
  · trivial

theorem tenancy_undisputed_beat :
    ((beatNext.after (heartbeatAllocator false)).tenants.Pairwise fun a b =>
      a.Current (beatNext.after (heartbeatAllocator false)).redis.now →
      b.Current (beatNext.after (heartbeatAllocator false)).redis.now → a.key ≠ b.key) ∧
    (∀ tenant ∈ (beatNext.after (heartbeatAllocator false)).tenants,
      tenant.Current (beatNext.after (heartbeatAllocator false)).redis.now →
      (beatNext.after (heartbeatAllocator false)).redis.locks tenant.key = some tenant.lock) ∧
    (∃ L, WellFormed (beatNext.after (heartbeatAllocator false)).redis L) ∧
    ∀ event ∈ beatEvents, ∀ tenant timeout, event.conduct = .leave tenant timeout →
      (event.after (heartbeatAllocator false)).redis.IsBack tenant.key :=
  tenancy_undisputed rfl rfl rfl rfl rfl beat_run beat_timely

end RedisAllocator
