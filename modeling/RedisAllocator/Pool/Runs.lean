import RedisAllocator.Pool.Soundness

/-!
# The pool over whole runs

A well-formed pool, stated on the stored entries, and what it goes through in a
run: from an empty pool every call ends in a well-formed pool, and a run that
only allocates, frees and collects garbage drops expired members and nothing else.
-/

set_option autoImplicit false

namespace RedisAllocator

open AbortableScript AbortableScript.Script NeighbourList LabelledRun

/-- `L` is the free list of `s`: a chain of distinct members from head to tail.  Every other
member carries the allocated marker twice. -/
structure WellFormed (s : Redis) (L : List String) : Prop where
  nodup : L.Nodup
  member : ∀ k ∈ L, (s.hget k).isSome
  head : s.headPointer = L.headD ""
  tail : s.tailPointer = L.getLastD ""
  linked : ∀ k ∈ L, ∀ val, s.hget k = some val →
    val.prev = predIn "" L k ∧ val.next = succIn "" L k
  marked : ∀ k, k ∉ L → ∀ val, s.hget k = some val →
    val.prev = allocatedSentinel ∧ val.next = allocatedSentinel
  named : ∀ k, (s.hget k).isSome → Nameable k

theorem Represents.wellFormed {s : Redis} {p : FreePool String} (rep : Represents s p) :
    WellFormed s p.free where
  nodup := p.nodup
  member := fun k present => (rep.hget_isSome k).trans (p.member k present)
  head := rep.head
  tail := rep.tail
  linked := by
    intro k present val stored
    obtain ⟨e, _, linked⟩ := rep.hget_free present
    rw [stored, Option.some.injEq] at linked
    rw [linked]
    exact ⟨rfl, rfl⟩
  marked := by
    intro k absent val stored
    obtain ⟨e, rfl⟩ := rep.marked absent val stored
    exact ⟨rfl, rfl⟩
  named := fun k isMember => rep.named k (by rw [← rep.hget_isSome, isMember])

namespace WellFormed

variable {s : Redis} {L : List String}

/-- The queue a well-formed pool stands for. -/
def pool (wf : WellFormed s L) : FreePool String where
  free := L
  expiry := fun k => (s.hget k).map PoolEntry.expiry
  nodup := wf.nodup
  member := fun k present => by rw [Option.isSome_map, wf.member k present]

theorem represents (wf : WellFormed s L) : Represents s wf.pool where
  head := wf.head
  tail := wf.tail
  entry := by
    intro k
    cases stored : s.hget k with
    | none => simp [pool, stored]
    | some val =>
        simp only [pool, stored, Option.map_some, entryIn, Option.some.injEq]
        obtain ⟨prev, next, expiry⟩ := val
        by_cases present : k ∈ L
        · obtain ⟨isPred, isSucc⟩ := wf.linked k present _ stored
          rw [if_pos present, ← isPred, ← isSucc]
        · obtain ⟨isPrev, isNext⟩ := wf.marked k present _ stored
          rw [if_neg present, PoolEntry.allocated, ← isPrev]
          exact congrArg (fun next => PoolEntry.mk prev next expiry) (isNext.trans isPrev.symm)
  named := fun k isMember => wf.named k (by rwa [pool, Option.isSome_map] at isMember)

end WellFormed

theorem wellFormed_marked {s : Redis} {k : String} {expiry : Int}
    (pool : s.pool = (AList.singleton k ⟨allocatedSentinel, allocatedSentinel, expiry⟩).toFinmap)
    (head : s.headPointer = "") (tail : s.tailPointer = "") (named : Nameable k) :
    WellFormed s [] := by
  have only {other : String} {entry : PoolEntry} (stored : s.hget other = some entry) :
      other = k ∧ entry = ⟨allocatedSentinel, allocatedSentinel, expiry⟩ := by
    rw [Redis.hget, pool, Finmap.lookup_toFinmap] at stored
    simpa using AList.mem_lookup_iff.mp stored
  refine ⟨List.nodup_nil, by simp, head, tail, by simp, ?_, ?_⟩
  · intro other _ entry stored
    rw [(only stored).2]
    exact ⟨rfl, rfl⟩
  · intro other isMember
    obtain ⟨entry, stored⟩ := Option.isSome_iff_exists.mp isMember
    rw [(only stored).1]
    exact named

/-! ## One call -/

/-- What `call` may do to the members when it starts from `s`. -/
def Call.Ages (s : Redis) (p p' : FreePool String) : Call → Prop
  | .mallocKey _ _ _ => Drops s.isExpiryInvalid p p'
  | .gc _ _ => Drops s.isExpiryInvalid p p'
  | .freeKeys keys _ => Renews keys p p'
  | _ => True

section Call

variable {S : String → Prop} {s : Redis} {p : FreePool String}

theorem discard_sound {x : LuaScript Unit} {ages : FreePool String → Prop}
    {reply : Except Failure Unit} {s' : Redis} (run : x s = (reply, s')) (orderly : Orderly reply)
    (sound : ∃ p', Sound S s' p' ∧ ages p') :
    Orderly ((x >>= fun _ => pure none : LuaScript (Option String)) s).1 ∧
      ∃ p', Sound S ((x >>= fun _ => pure none : LuaScript (Option String)) s).2 p' ∧ ages p' := by
  cases reply with
  | ok u =>
      rw [bind_ok run]
      exact ⟨.ok _, sound⟩
  | error failure =>
      rw [bind_error run]
      obtain ⟨noAssertion, noLimit⟩ := orderly failure rfl
      exact ⟨.error noAssertion noLimit, sound⟩

theorem afterValidation_sound (sound : Sound S s p) {keys : List String} {x : LuaScript Unit}
    {D : FreePool String → Prop}
    (run : validateKeys keys = .ok () → ∃ s', x s = (.ok (), s') ∧ ∃ p', Sound S s' p' ∧ D p')
    (stopped : validateKeys keys ≠ .ok () → D p) :
    ∃ reply s', (raiseInvalid keys >>= fun _ => x) s = (reply, s') ∧ Orderly reply ∧
      ∃ p', Sound S s' p' ∧ D p' := by
  rcases raiseInvalid_run keys s with ⟨passed, accepted⟩ | ⟨⟨e, raised⟩, refused⟩
  · obtain ⟨s', completed, sound'⟩ := run accepted
    exact ⟨.ok (), s', by rw [bind_ok passed, completed], .ok _, sound'⟩
  · exact ⟨_, s, bind_error raised, .error (by simp) (by simp), p, sound, stopped refused⟩

theorem extend_sound (sound : Sound S s p) (keys : List String) (timeout : Option Int) :
    ∃ reply s', extend keys timeout s = (reply, s') ∧ Orderly reply ∧ ∃ p', Sound S s' p' ∧
      ∀ k, p'.expiry k = if k ∈ keys ∧ validateKeys keys = .ok ()
        then some (s.timeoutToExpiry (timeout.getD (-1))) else p.expiry k := by
  rw [extend]
  split
  · rename_i noKeys
    exact ⟨.ok (), s, rfl, .ok _, p, sound, by simp [noKeys]⟩
  · refine afterValidation_sound sound (fun accepted => ?_) fun refused k => by simp [refused]
    obtain ⟨s', run, p', sound', set⟩ :=
      extendScript_sound sound (nameable_of_validateKeys accepted) (timeout.getD (-1))
    exact ⟨s', run, p', sound', fun k => by simp [set, accepted]⟩

theorem shrink_sound (sound : Sound S s p) (keys : List String) :
    ∃ s', shrink keys s = (.ok (), s') ∧ ∃ p', Sound S s' p' := by
  rw [shrink]
  split
  · exact ⟨s, rfl, p, sound⟩
  · exact shrinkScript_sound sound keys

theorem clear_sound (S : String → Prop) (s : Redis) :
    ∃ s', clear s = (.ok (), s') ∧ ∃ p', Sound S s' p' := by
  obtain ⟨s', run, sound', _⟩ := Sound.of_completes (S := S) (clear_completes s)
    (fun k present => by cases present)
  exact ⟨s', run, _, sound'⟩

theorem assign_sound (sound : Sound S s p) (keys : List String) {allItems pairs : List String}
    (unique : allItems.Nodup) (members : ∀ k, k ∈ allItems ↔ (p.expiry k).isSome)
    (once : pairs.Nodup) (timeout : Int) :
    ∃ reply s', assign keys timeout allItems pairs s = (reply, s') ∧ Orderly reply ∧
      ∃ p', Sound S s' p' := by
  rw [assign]
  split
  · obtain ⟨s', run, sound'⟩ := clear_sound S s
    exact ⟨_, s', run, .ok _, sound'⟩
  · obtain ⟨reply, s', run, orderly, p', sound', _⟩ := afterValidation_sound sound
      (x := assignScript timeout keys allItems pairs) (D := fun _ => True)
      (fun accepted => by
        obtain ⟨s', run, p', sound'⟩ := assignScript_sound sound
          (nameable_of_validateKeys accepted) unique members once timeout
        exact ⟨s', run, p', sound', trivial⟩)
      fun _ => trivial
    exact ⟨reply, s', run, orderly, p', sound'⟩

theorem freeKeys_sound (sound : Sound S s p) {keys : List String} (covered : ∀ k ∈ keys, S k)
    (timeout : Int) :
    ∃ s', freeKeys keys timeout s = (.ok (), s') ∧ ∃ p', Sound S s' p' ∧ Renews keys p p' ∧
      ∀ k, s.locked k = false → p'.expiry k = p.expiry k := by
  rw [freeKeys]
  split
  · exact ⟨s, rfl, p, sound, .refl p, fun _ _ => rfl⟩
  · exact freeScript_sound sound covered timeout

theorem gc_sound (sound : Sound S s p) (count : Int) {hscan : String → Int → ScanReply}
    (unique : ∀ cursor, (hscan cursor count).items.Nodup)
    (members : ∀ cursor, ∀ k ∈ (hscan cursor count).items, (p.expiry k).isSome) :
    ∃ reply s', gc count hscan s = (reply, s') ∧ Orderly reply ∧
      ∃ p', Sound S s' p' ∧ Drops s.isExpiryInvalid p p' := by
  rw [gc]
  split
  · simp only [gcScript, getCursor, read_bind_apply]
    obtain ⟨s', run, p', sound', drops⟩ := gcItems_sound sound (unique _) (members _)
    rw [bind_ok run]
    exact ⟨.ok (), _, rfl, .ok _, p',
      ⟨sound'.rep.of_outside_pool rfl rfl rfl, sound'.unlocked⟩, drops⟩
  · exact ⟨_, s, rfl, .error (by simp) (by simp), p, sound, .refl p⟩

theorem call_sound (sound : Sound S s p) (shared : Bool) (call : Call)
    (admissible : call.Admissible s)
    (covered : ∀ keys timeout, call = .freeKeys keys timeout → ∀ k ∈ keys, S k) :
    Orderly (call.perform shared s).1 ∧
      ∃ p', Sound S (call.perform shared s).2 p' ∧ call.Ages s p p' := by
  have member := sound.rep.mem_keys_iff
  cases call with
  | extend keys timeout =>
      obtain ⟨reply, s', run, orderly, p', sound', _⟩ := extend_sound sound keys timeout
      exact discard_sound run orderly ⟨p', sound', trivial⟩
  | shrink keys =>
      obtain ⟨s', run, p', sound'⟩ := shrink_sound sound keys
      exact discard_sound run (.ok _) ⟨p', sound', trivial⟩
  | assign keys timeout allItems pairs =>
      obtain ⟨unique, members, once, _⟩ := admissible
      obtain ⟨reply, s', run, orderly, p', sound'⟩ := assign_sound sound keys unique
        (fun k => by rw [← member, ← members, List.mem_toFinset]) once timeout
      exact discard_sound run orderly ⟨p', sound', trivial⟩
  | clear =>
      obtain ⟨s', run, p', sound'⟩ := clear_sound S s
      exact discard_sound run (.ok _) ⟨p', sound', trivial⟩
  | mallocKey timeout name cacheTimeout =>
      obtain ⟨reply, s', run, orderly, done⟩ := mallocScript_sound sound shared
        timeout.wholeSeconds (name.getD "") cacheTimeout.wholeSeconds
      rw [Call.perform, mallocKey, run]
      exact ⟨orderly, done⟩
  | freeKeys keys timeout =>
      obtain ⟨s', run, p', sound', renews, _⟩ :=
        freeKeys_sound sound (covered keys timeout rfl) timeout
      exact discard_sound run (.ok _) ⟨p', sound', renews⟩
  | gc count hscan =>
      obtain ⟨reply, s', run, orderly, p', sound', drops⟩ := gc_sound sound count
        (fun cursor => (admissible cursor count).1) (fun cursor k inItems =>
          (member k).mp ((admissible cursor count).2 (List.mem_toFinset.mpr inItems)))
      exact discard_sound run orderly ⟨p', sound', drops⟩

end Call

/-! ## Runs of calls -/

/-- A pool without queued keys under a live lock, from which every call is safe. -/
abbrev AllSound : Redis → FreePool String → Prop := Sound fun _ => True

theorem CallStep.sound {shared : Bool} {s s' : Redis} {event : Event} {p : FreePool String}
    (step : CallStep shared s event s') (sound : AllSound s p) :
    AllSound event.before p ∧ Orderly (event.reply shared) ∧
      ∃ p', AllSound (event.after shared) p' ∧ event.call.Ages event.before p p' := by
  obtain ⟨⟨elapsed, later⟩, admissible, _⟩ := step
  have started : AllSound event.before p := later ▸ sound.advance elapsed
  exact ⟨started, call_sound started shared event.call admissible fun _ _ _ _ _ => trivial⟩

theorem CallRun.sound {shared : Bool} {start final : Redis} {events : List Event}
    (run : CallRun shared start events final) {p : FreePool String} (sound : AllSound start p) :
    ∀ event ∈ events, ∃ p, AllSound event.before p ∧ Orderly (event.reply shared) ∧
      ∃ p', AllSound (event.after shared) p' ∧ event.call.Ages event.before p p' := by
  intro event inEvents
  obtain ⟨s, s', ⟨p, sound⟩, step⟩ := run.fired (fun s => ∃ p, AllSound s p) (fun _ => True)
    (fun s event s' holds _ step => by
      obtain ⟨p, sound⟩ := holds
      obtain ⟨_, _, p', sound', _⟩ := step.sound sound
      exact ⟨p', step.2.2 ▸ sound'⟩)
    ⟨p, sound⟩ (fun _ _ => trivial) event inEvents
  exact ⟨p, step.sound sound⟩

theorem empty_sound {S : String → Prop} {s : Redis} (noEntry : s.pool = ∅)
    (head : s.headPointer = "") (tail : s.tailPointer = "") : Sound S s FreePool.empty where
  rep := ⟨head, tail, fun k => by rw [Redis.hget, noEntry]; rfl, fun k isMember => by cases isMember⟩
  unlocked := fun k present => by cases present

/-- Whatever the clients call, in whatever order, the pool is well formed after every call and no
assert of the Lua functions fails. -/
theorem callRun_wellFormed (shared : Bool) {start final : Redis} {events : List Event}
    (noEntry : start.pool = ∅) (head : start.headPointer = "") (tail : start.tailPointer = "")
    (run : CallRun shared start events final) :
    ∀ event ∈ events,
      (∃ L, WellFormed (event.after shared) L ∧ ∀ k ∈ L, (event.after shared).locked k = false) ∧
      (∀ message, event.reply shared ≠ .error (.assertion message)) ∧
      event.reply shared ≠ .error .recursionLimit := by
  intro event inEvents
  obtain ⟨_, _, orderly, p', sound', _⟩ := CallRun.sound run (empty_sound noEntry head tail)
    event inEvents
  refine ⟨⟨p'.free, sound'.rep.wellFormed, fun k present => sound'.unlocked k present trivial⟩,
    fun message same => ?_, fun same => ?_⟩
  · exact (orderly _ same).1 message rfl
  · exact (orderly _ same).2 rfl

def sampleStart : Event := ⟨(Redis.empty 0).advance 1000, .extend ["a", "b"] none⟩

def sampleMalloc : Event :=
  ⟨(sampleStart.after false).advance 2000, .mallocKey (.int 30) (some "job") (.int 60)⟩

theorem sample_run :
    CallRun false (Redis.empty 0) [sampleStart, sampleMalloc] (sampleMalloc.after false) :=
  .fire ⟨⟨1000, rfl⟩, trivial, rfl⟩ (.fire ⟨⟨2000, rfl⟩, trivial, rfl⟩ (.done _))

theorem callRun_wellFormed_sample :
    (∃ L, WellFormed (sampleMalloc.after false) L ∧
      ∀ k ∈ L, (sampleMalloc.after false).locked k = false) ∧
    (∀ message, sampleMalloc.reply false ≠ .error (.assertion message)) ∧
    sampleMalloc.reply false ≠ .error .recursionLimit :=
  callRun_wellFormed false rfl rfl rfl sample_run sampleMalloc (by simp)

/-! ## Members of a pool in use -/

/-- The calls of a client that uses the pool without changing what is in it. -/
def Call.isUsage : Call → Bool
  | .mallocKey _ _ _ => true
  | .freeKeys _ _ => true
  | .gc _ _ => true
  | _ => false

/-- `k` was a member and stays one; only a `free_keys` that names it changes its expiry. -/
def Event.Retains (shared : Bool) (event : Event) (k : String) (val : PoolEntry) : Prop :=
  ∃ val', (event.after shared).hget k = some val' ∧
    (val'.expiry = val.expiry ∨ ∃ keys timeout, event.call = .freeKeys keys timeout ∧ k ∈ keys)

section Usage

variable {shared : Bool} {event : Event} {p p' : FreePool String}

theorem Represents.expiry_of_hget {s : Redis} (rep : Represents s p) {k : String}
    {val : PoolEntry} (stored : s.hget k = some val) : p.expiry k = some val.expiry := by
  rw [rep.entry k] at stored
  obtain ⟨e, found, rfl⟩ := Option.map_eq_some_iff.mp stored
  rw [found, expiry_entryIn]

theorem Represents.hget_of_expiry {s : Redis} (rep : Represents s p) {k : String} {e : Int}
    (found : p.expiry k = some e) : ∃ val, s.hget k = some val ∧ val.expiry = e :=
  ⟨entryIn p.free k e, by rw [rep.entry k, found]; rfl, expiry_entryIn k e⟩

theorem Call.Ages.cases {call : Call} {s : Redis} (ages : call.Ages s p p')
    (usage : call.isUsage = true) (k : String) :
    p'.expiry k = p.expiry k ∨
      (p'.expiry k = none ∧ (p.expiry k).any s.isExpiryInvalid = true) ∨
      ((p.expiry k).isSome ∧ (p'.expiry k).isSome ∧
        ∃ keys timeout, call = .freeKeys keys timeout ∧ k ∈ keys) := by
  cases call with
  | mallocKey timeout name cacheTimeout => exact (ages k).imp_right Or.inl
  | gc count hscan => exact (ages k).imp_right Or.inl
  | freeKeys keys timeout =>
      rcases ages k with same | ⟨named, before, after⟩
      · exact Or.inl same
      · exact Or.inr (Or.inr ⟨before, after, keys, timeout, rfl, named⟩)
  | _ => cases usage

variable (rep : Represents event.before p) (rep' : Represents (event.after shared) p')
  (ages : event.call.Ages event.before p p') (usage : event.call.isUsage = true) (k : String)
include rep rep' ages usage

theorem Event.noResurrection (absent : event.before.hget k = none) :
    (event.after shared).hget k = none := by
  rw [rep.hget_none_iff] at absent
  rw [rep'.hget_none_iff]
  rcases ages.cases usage k with same | ⟨gone, _⟩ | ⟨isMember, _⟩
  · rw [same, absent]
  · exact gone
  · rw [absent] at isMember
    cases isMember

theorem Event.retains {val : PoolEntry} (stored : event.before.hget k = some val)
    (unexpired : event.before.isExpiryInvalid val.expiry = false) :
    event.Retains shared k val := by
  have found := rep.expiry_of_hget stored
  rcases ages.cases usage k with same | ⟨_, expired⟩ | ⟨_, isMember, named⟩
  · obtain ⟨val', stored', sameExpiry⟩ := rep'.hget_of_expiry (same.trans found)
    exact ⟨val', stored', Or.inl sameExpiry⟩
  · rw [found, Option.any_some, unexpired] at expired
    cases expired
  · obtain ⟨e, found'⟩ := Option.isSome_iff_exists.mp isMember
    obtain ⟨val', stored', _⟩ := rep'.hget_of_expiry found'
    exact ⟨val', stored', Or.inr named⟩

end Usage

theorem CallRun.members {shared : Bool} {start final : Redis} {events : List Event}
    (run : CallRun shared start events final)
    (noResurrection : ∀ event ∈ events, ∀ k, event.before.hget k = none →
      (event.after shared).hget k = none)
    (retains : ∀ event ∈ events, ∀ k val, event.before.hget k = some val →
      event.before.isExpiryInvalid val.expiry = false → (event.after shared).hget k ≠ none)
    (k : String) :
    (start.hget k = none → final.hget k = none) ∧
      (start.hget k ≠ none → final.hget k = none → ∃ event ∈ events, ∃ val,
        event.before.hget k = some val ∧ event.before.isExpiryInvalid val.expiry = true ∧
          (event.after shared).hget k = none) := by
  induction run with
  | done => exact ⟨id, fun present absent => absurd absent present⟩
  | @fire s middle final event rest first later ih =>
      obtain ⟨⟨elapsed, before⟩, _, after⟩ := first
      have sameEntry : event.before.hget k = s.hget k := by rw [before, Redis.hget_advance]
      obtain ⟨stillAbsent, dropped⟩ := ih
        (fun e inRest => noResurrection e (List.mem_cons_of_mem _ inRest))
        (fun e inRest => retains e (List.mem_cons_of_mem _ inRest))
      have mine : event ∈ event :: rest := List.mem_cons_self ..
      constructor
      · intro absent
        refine stillAbsent (after ▸ noResurrection event mine k ?_)
        rw [sameEntry, absent]
      · intro present absent
        by_cases goneNow : middle.hget k = none
        · obtain ⟨val, stored⟩ := Option.ne_none_iff_exists'.mp present
          rw [← sameEntry] at stored
          refine ⟨event, mine, val, stored, ?_, after ▸ goneNow⟩
          by_contra unexpired
          exact retains event mine k val stored (by simpa using unexpired) (after ▸ goneNow)
        · obtain ⟨other, inRest, witness⟩ := dropped goneNow absent
          exact ⟨other, List.mem_cons_of_mem _ inRest, witness⟩

/-- Allocating, freeing and collecting garbage never adds a key, never drops an unexpired one,
and leaves the expiry of every unexpired key to the `free_keys` that name it. -/
theorem usageRun_members (shared : Bool) {start final : Redis} {events : List Event}
    {L : List String} (wellFormed : WellFormed start L)
    (unlocked : ∀ k ∈ L, start.locked k = false) (run : CallRun shared start events final)
    (usage : ∀ event ∈ events, event.call.isUsage = true) :
    (∀ k, start.hget k = none → final.hget k = none) ∧
    (∀ k, start.hget k ≠ none → final.hget k = none → ∃ event ∈ events, ∃ val,
      event.before.hget k = some val ∧ event.before.isExpiryInvalid val.expiry = true ∧
        (event.after shared).hget k = none) ∧
    ∀ event ∈ events, ∀ k,
      (event.before.hget k = none → (event.after shared).hget k = none) ∧
      ∀ val, event.before.hget k = some val →
        event.before.isExpiryInvalid val.expiry = false → event.Retains shared k val := by
  have sound : AllSound start wellFormed.pool :=
    ⟨wellFormed.represents, fun k present _ => unlocked k present⟩
  have each : ∀ event ∈ events, ∀ k,
      (event.before.hget k = none → (event.after shared).hget k = none) ∧
      ∀ val, event.before.hget k = some val →
        event.before.isExpiryInvalid val.expiry = false → event.Retains shared k val := by
    intro event inEvents k
    obtain ⟨p, started, _, p', ended, ages⟩ := CallRun.sound run sound event inEvents
    exact ⟨event.noResurrection started.rep ended.rep ages (usage event inEvents) k,
      fun val => event.retains started.rep ended.rep ages (usage event inEvents) k⟩
  have members := CallRun.members run (fun event inEvents k => (each event inEvents k).1)
    (fun event inEvents k val stored unexpired absent => by
      obtain ⟨val', stored', _⟩ := (each event inEvents k).2 val stored unexpired
      rw [absent] at stored'
      cases stored')
  exact ⟨fun k => (members k).1, fun k => (members k).2, each⟩

/-- `a` waits before `b`, and its expiry is 5 seconds. -/
def sampleChain : Redis :=
  ((((Redis.empty 0).hset "a" ⟨"", "b", 5⟩).hset "b" ⟨"a", "", -1⟩).setHead "a").setTail "b"

theorem hget_sampleChain (k : String) : sampleChain.hget k =
    if k = "b" then some ⟨"a", "", -1⟩ else if k = "a" then some ⟨"", "b", 5⟩ else none := by
  simp only [sampleChain, Redis.hget_setTail, Redis.hget_setHead, Redis.hget_hset]
  rfl

theorem sampleChain_wellFormed : WellFormed sampleChain ["a", "b"] where
  nodup := by decide
  member := by simp [hget_sampleChain]
  head := rfl
  tail := rfl
  linked := by
    intro k present val stored
    simp only [List.mem_cons, List.not_mem_nil, or_false] at present
    rcases present with rfl | rfl <;>
    · simp only [hget_sampleChain] at stored
      cases stored
      decide
  marked := by
    intro k absent val stored
    simp only [List.mem_cons, List.not_mem_nil, or_false, not_or] at absent
    rw [hget_sampleChain, if_neg absent.2, if_neg absent.1] at stored
    cases stored
  named := by
    intro k isMember
    rw [hget_sampleChain] at isMember
    split at isMember
    · subst k
      exact ⟨by decide, by decide⟩
    · split at isMember
      · subst k
        exact ⟨by decide, by decide⟩
      · cases isMember

/-- Ten seconds later `a` has expired: `malloc_key` drops it, returns `b`, and `b` is freed. -/
def sampleUsage : List Event :=
  let malloc : Event := ⟨sampleChain.advance 10000, .mallocKey (.int 30) none (.int 60)⟩
  [malloc, ⟨(malloc.after false).advance 1000, .freeKeys ["a", "b"] 100⟩]

def sampleEnd : Redis := (sampleUsage.getLast (by simp [sampleUsage])).after false

theorem usageRun_members_sample :
    (∀ k, sampleChain.hget k = none → sampleEnd.hget k = none) ∧
    (∀ k, sampleChain.hget k ≠ none → sampleEnd.hget k = none → ∃ event ∈ sampleUsage, ∃ val,
      event.before.hget k = some val ∧ event.before.isExpiryInvalid val.expiry = true ∧
        (event.after false).hget k = none) ∧
    ∀ event ∈ sampleUsage, ∀ k,
      (event.before.hget k = none → (event.after false).hget k = none) ∧
      ∀ val, event.before.hget k = some val →
        event.before.isExpiryInvalid val.expiry = false → event.Retains false k val :=
  usageRun_members false sampleChain_wellFormed (by decide)
    (.fire ⟨⟨10000, rfl⟩, trivial, rfl⟩ (.fire ⟨⟨1000, rfl⟩, trivial, rfl⟩ (.done _)))
    (by decide)

end RedisAllocator
