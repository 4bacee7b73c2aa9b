import RedisAllocator.Objects.Leases
import RedisAllocator.Pool.Recovery

/-!
# A whole scan of the pool

Non-shared mode.  `gc` keeps HSCAN's cursor in Redis, so that the `gc` calls of all
clients together are one iteration over the pool, whatever else happens in
between.  From the cursor 0 until it is 0 again, such an iteration brings back
every key that nobody holds.
-/

set_option autoImplicit false

namespace RedisAllocator

open AbortableScript AbortableScript.Script LabelledRun

/-! ## The cursor goes from hand to hand -/

def Event.hscan? (event : Event) : Option (String × ScanReply) :=
  match event.call with
  | .gc count hscan =>
    if 0 < count then some (event.before.cursor, hscan event.before.cursor count) else none
  | _ => none

def ScanReply.next (reply : ScanReply) : String := if reply.cursor = "" then "0" else reply.cursor

def Event.cursors? (event : Event) : Option (String × String) :=
  event.hscan?.map fun scan => (scan.1, scan.2.next)

/-- From the cursor 0 to the cursor 0 -/
def FullIteration (cycle : List Event) : Prop :=
  cycle.filterMap Event.cursors? ≠ [] ∧ HandsOn "0" (cycle.filterMap Event.cursors?) "0"

section Cursor

variable {shared : Bool} {s s' final : Redis} {p : FreePool String} {event : Event}

theorem QueueAllocator.gcCursor_perform (a : QueueAllocator) (shared : Bool) (call : Call) :
    (a.perform shared call).2.gcCursor =
      match call with
      | .gc count hscan =>
        if 0 < count then some (hscan a.cursor count).cursor else a.gcCursor
      | _ => a.gcCursor := by
  cases call with
  | extend keys timeout =>
      rw [perform, extend]
      split <;> rfl
  | assign keys timeout allItems pairs =>
      rw [perform, assign]
      split <;> rfl
  | mallocKey timeout name cacheTimeout =>
      have bound (b : QueueAllocator) (name : String) (cacheTimeout : Int) (k : String) :
          (b.bind name cacheTimeout k).gcCursor = b.gcCursor := by
        rw [bind]
        split <;> rfl
      have forgotten : (a.forget (name.getD "")).gcCursor = a.gcCursor := by
        rw [forget]
        split <;> rfl
      simp only [perform, mallocKey]
      split
      · simp only [pop]
        split
        · exact forgotten
        · rw [bound]
          split <;> exact forgotten
      · split
        · exact bound ..
        · split <;> exact bound ..
  | gc count hscan =>
      simp only [perform, gc]
      split <;> rfl
  | shrink keys => rfl
  | clear => rfl
  | freeKeys keys timeout => rfl

/-- Whoever calls `gc`, it goes on where the last `gc` of anyone stopped. -/
theorem CallRun.cursors {cycle : List Event} (run : CallRun shared s cycle final)
    (sound : AllSound s p) :
    HandsOn s.cursor (cycle.filterMap Event.cursors?) final.cursor := by
  refine run.handsOn Redis.cursor Event.cursors? (fun s => ∃ p, AllSound s p) ?_ ⟨p, sound⟩
  rintro s event s' ⟨p, sound⟩ step
  obtain ⟨started, _, p', sound', _⟩ := step.sound sound
  obtain ⟨⟨elapsed, later⟩, admissible, rfl⟩ := step
  refine ⟨⟨p', sound'⟩, ?_⟩
  obtain ⟨_, _, view⟩ := call_simulates started shared admissible
  have stored := congrArg QueueAllocator.gcCursor view
  rw [QueueAllocator.gcCursor_perform] at stored
  have same : event.before.cursor = s.cursor := by rw [later]; rfl
  have kept (unused : (event.after shared).gcCursor = event.before.gcCursor) :
      (event.after shared).cursor = s.cursor := by rw [← same, Redis.cursor, unused, Redis.cursor]
  rw [Event.cursors?, Event.hscan?]
  cases call : event.call with
  | gc count hscan =>
      rw [call] at stored
      by_cases positive : 0 < count
      · simp only [if_pos positive, Option.map_some] at stored ⊢
        have written : (event.after shared).gcCursor =
            some (hscan event.before.cursor count).cursor := by
          rw [Event.after, call]
          exact stored.symm
        exact ⟨same, by rw [Redis.cursor, written, ScanReply.next]⟩
      · simp only [if_neg positive, Option.map_none] at stored ⊢
        apply kept
        rw [Event.after, call]
        exact stored.symm
  | _ =>
      rw [call] at stored
      apply kept
      rw [Event.after, call]
      exact stored.symm

end Cursor

/-! ## What the iteration brings back -/

/-- The `gc` finds `k` in the reply to its HSCAN. -/
def Event.Visits (event : Event) (k : String) : Prop :=
  ∃ cursor reply, event.hscan? = some (cursor, reply) ∧ k ∈ reply.items

def Event.KeepsMember (event : Event) (k : String) : Prop :=
  (event.before.hget k).isSome ∧ ((event.after false).hget k).isSome

/-- What Redis promises of HSCAN: a full iteration reports every field that is there from its start
to its end. -/
def HscanComplete (cycle : List Event) : Prop :=
  FullIteration cycle → ∀ k, (∀ event ∈ cycle, event.KeepsMember k) → ∃ event ∈ cycle, event.Visits k

/-- `malloc_key` returns `k`, or the name it is given is bound to `k`. -/
def Event.Reaches (event : Event) (k : String) : Prop :=
  ∃ timeout name cacheTimeout, event.call = .mallocKey timeout name cacheTimeout ∧
    (event.before.boundKey (name.getD "") = some k ∨ event.Returns false k)

section Visit

variable {s final : Redis} {p : FreePool String} {event : Event} {k : String}

theorem Event.spares_of_not_reaches (unreached : ¬ event.Reaches k) :
    event.call.Spares k event.before := by
  cases call : event.call with
  | mallocKey timeout name cacheTimeout =>
      refine ⟨fun bound => unreached ⟨_, _, _, call, .inl bound⟩, fun returned => ?_⟩
      rw [← call] at returned
      exact unreached ⟨_, _, _, call, .inr returned⟩
  | _ => trivial

theorem Event.of_hscan {cursor : String} {reply : ScanReply}
    (scanned : event.hscan? = some (cursor, reply)) :
    ∃ count hscan, event.call = .gc count hscan ∧ 0 < count ∧
      reply = hscan event.before.cursor count := by
  rw [Event.hscan?] at scanned
  split at scanned
  next count hscan call =>
    split at scanned
    next positive =>
      cases scanned
      exact ⟨count, hscan, call, positive, rfl⟩
    next => cases scanned
  next => cases scanned

theorem Event.Visits.isBack (visits : event.Visits k) (sound : AllSound event.before p)
    (admissible : event.call.Admissible event.before) (unlocked : event.before.locked k = false)
    (remains : ((event.after false).hget k).isSome) : (event.after false).IsBack k := by
  obtain ⟨cursor, reply, scanned, visited⟩ := visits
  obtain ⟨count, hscan, call, positive, rfl⟩ := Event.of_hscan scanned
  obtain ⟨_, rep, view⟩ := call_simulates sound false admissible
  have now := Event.now_after admissible
  have locks : (event.after false).locks = event.before.locks := by
    have same := congrArg QueueAllocator.locks view.symm
    rw [call, QueueAllocator.perform, QueueAllocator.gc, if_pos positive, ← call] at same
    exact same
  have collected : ((event.before.queueView p).perform false event.call).2.pool =
      (hscan event.before.cursor count).items.foldl
        (·.collect event.before.isExpiryInvalid event.before.locked ·) p := by
    rw [call, QueueAllocator.perform, QueueAllocator.gc, if_pos positive]
    rfl
  rw [collected] at rep
  have isMember : (p.expiry k).isSome := by
    rw [call] at admissible
    have inPool := (admissible event.before.cursor count).2 (List.mem_toFinset.mpr visited)
    rwa [sound.rep.mem_keys_iff] at inPool
  have unexpired : (p.expiry k).any event.before.isExpiryInvalid = false := by
    rw [Event.after, rep.hget_isSome, FreePool.expiry_collectAll] at remains
    split at remains
    · cases remains
    · rename_i spared
      simpa [visited] using spared
  have queued := (FreePool.mem_free_collectAll visited isMember unexpired).mpr unlocked
  refine rep.isBack_iff.mpr ⟨?_, fun _ => queued⟩
  have stillUnlocked : (event.after false).locked k = event.before.locked k := by
    rw [Redis.locked, Redis.lock?, locks, now]
    rfl
  exact stillUnlocked.trans unlocked

theorem CallRun.staysFree {rest : List Event} (run : CallRun false s rest final)
    (sound : AllSound s p) (back : s.IsBack k) (isMember : (s.hget k).isSome)
    (spared : ∀ event ∈ rest, ¬ event.Reaches k ∧ event.KeepsMember k) :
    ∃ L, WellFormed final L ∧ k ∈ L := by
  obtain ⟨⟨q, soundLast⟩, backLast, memberLast⟩ := run.invariant
    (fun s => (∃ p, AllSound s p) ∧ s.IsBack k ∧ (s.hget k).isSome)
    (fun event => ¬ event.Reaches k ∧ event.KeepsMember k) (by
      rintro s event s' ⟨⟨p, sound⟩, back, _⟩ ⟨unreached, stays⟩ step
      obtain ⟨started, _, p', sound', _⟩ := step.sound sound
      obtain ⟨⟨elapsed, later⟩, admissible, rfl⟩ := step
      have waits : event.before.IsBack k := later ▸ back.advance elapsed
      have spares := Event.spares_of_not_reaches unreached
      exact ⟨⟨p', sound'⟩, isBack_perform started admissible spares waits, stays.2⟩)
    ⟨⟨p, sound⟩, back, isMember⟩ spared
  obtain ⟨_, waits⟩ := soundLast.rep.isBack_iff.mp backLast
  exact ⟨_, soundLast.rep.wellFormed, waits (soundLast.rep.hget_isSome k ▸ memberLast)⟩

end Visit

def lostCycle : List Event := [soleGc (.int 30) 31000]

theorem lostCycle_members : (soleGc (.int 30) 31000).before.pool.keys = {"k"} := by decide

theorem lostCycle_run : CallRun false ((soleMalloc (.int 30)).after false) lostCycle
    ((soleGc (.int 30) 31000).after false) :=
  .fire ⟨⟨31000, rfl⟩, fun _ _ => ⟨by simp, by simp [lostCycle_members]⟩, rfl⟩ (.done _)

theorem lostCycle_complete : HscanComplete lostCycle := by
  intro _ k stays
  have inPool : k ∈ (soleGc (.int 30) 31000).before.pool.keys :=
    Finmap.lookup_isSome.mp (stays _ (List.mem_singleton_self _)).1
  rw [lostCycle_members] at inPool
  exact ⟨_, List.mem_singleton_self _, "0", ⟨"0", ["k"]⟩, rfl, by simpa using inPool⟩

theorem lostCycle_abandoned :
    ¬ Standing (·.HandsOutBeyond "k" (soleGc (.int 30) 31000).before.now) (·.GivesUp "k")
      [soleStart, soleMalloc (.int 30)] := by
  rintro standing
  obtain ⟨event, inPast, timeout, name, cacheTimeout, call, _, within⟩ := standing.opened
  simp only [List.mem_cons, List.not_mem_nil, or_false] at inPast
  rcases inPast with rfl | rfl
  · cases call
  · cases call
    exact absurd (within (by decide)) (by decide)

end RedisAllocator
