import RedisAllocator.Allocator.Exclusivity
import RedisAllocator.Pool.Sweep

/-!
# How long assigned keys stay

`assign` gives its timeout to the keys that are new.  A key that was a member
already keeps the expiry it had, so the call's timeout says how long the keys
stay only when no such expiry comes first.
-/

set_option autoImplicit false

namespace RedisAllocator

open AbortableScript AbortableScript.Script LabelledRun

/-- The calls that neither list nor evict keys, with the timeout `release` and `free` use. -/
def Call.isDefaultUsage : Call → Bool
  | .mallocKey _ _ _ => true
  | .freeKeys _ timeout => decide (timeout = -1)
  | .gc _ _ => true
  | _ => false

/-- The end of `timeout` seconds from now, in milliseconds; `none` when there is no end. -/
def Redis.endOf (s : Redis) (timeout : Int) : Option Int :=
  if timeout ≤ 0 then none else some (s.now + 1000 * timeout)

/-- A member with expiry `e` cannot be told expired before the deadline. -/
def Lasts (deadline : Option Int) (e : Int) : Prop := e ≤ 0 ∨ ∃ d ∈ deadline, d ≤ 1000 * e

/-- The members are `keys` after every run of default usage before the deadline. -/
def StaysUntil (shared : Bool) (deadline : Option Int) (keys : List String) (s : Redis) : Prop :=
  ∀ (events : List Event) (final : Redis), CallRun shared s events final →
    (∀ event ∈ events, event.call.isDefaultUsage = true ∧
      ∀ d ∈ deadline, (event.before.now : Int) < d) →
    ∀ k, (final.hget k).isSome ↔ k ∈ keys

section Usage

variable {s s' : Redis} {p p' : FreePool String} {deadline : Option Int}

theorem Lasts.unexpired {e : Int} (lasts : Lasts deadline e)
    (early : ∀ d ∈ deadline, (s.now : Int) < d) : s.isExpiryInvalid e = false := by
  rw [Redis.isExpiryInvalid_eq_false, Redis.time]
  rcases lasts with unset | ⟨d, isDeadline, later⟩
  · exact Or.inl unset
  · have before := early d isDeadline
    omega

theorem Drops.members (drops : Drops s.isExpiryInvalid p p')
    (lasting : ∀ k e, p.expiry k = some e → Lasts deadline e)
    (early : ∀ d ∈ deadline, (s.now : Int) < d) : p'.expiry = p.expiry := by
  funext k
  rcases drops k with same | ⟨_, dead⟩
  · exact same
  · obtain ⟨e, found, expired⟩ := (Option.any_eq_true _ _).mp dead
    rw [(lasting k e found).unexpired early] at expired
    cases expired

theorem Event.keepsMembers (shared : Bool) {event : Event} (sound : AllSound event.before p)
    (admissible : event.call.Admissible event.before)
    (usage : event.call.isDefaultUsage = true)
    (early : ∀ d ∈ deadline, (event.before.now : Int) < d)
    (lasting : ∀ k e, p.expiry k = some e → Lasts deadline e) :
    ∃ p', AllSound (event.after shared) p' ∧
      (∀ k, (p'.expiry k).isSome ↔ (p.expiry k).isSome) ∧
      ∀ k e, p'.expiry k = some e → Lasts deadline e := by
  obtain ⟨before, call⟩ := event
  obtain ⟨_, p', sound', ages⟩ := call_sound sound shared call admissible
    (fun _ _ _ _ _ => trivial)
  refine ⟨p', sound', ?_⟩
  cases call with
  | mallocKey timeout name cacheTimeout =>
      have same : p'.expiry = p.expiry := Drops.members ages lasting early
      rw [same]
      exact ⟨fun _ => Iff.rfl, lasting⟩
  | gc count hscan =>
      have same : p'.expiry = p.expiry := Drops.members ages lasting early
      rw [same]
      exact ⟨fun _ => Iff.rfl, lasting⟩
  | freeKeys keys timeout =>
      have isDefault : timeout = -1 := of_decide_eq_true usage
      obtain ⟨s', run, rep', _⟩ := freeKeys_completes sound.rep
        (fun k present => sound.unlocked k present trivial) keys timeout
      have after : Event.after shared ⟨before, .freeKeys keys timeout⟩ = s' :=
        discard_run run
      have back : ∀ k, p'.expiry k = p.expiry k ∨
          (p.expiry k).isSome = true ∧ p'.expiry k = some (-1) := by
        intro k
        have stored : p'.expiry k = (keys.foldl
            (·.giveBack before.locked (before.timeoutToExpiry timeout) ·) p).expiry k := by
          rw [← sound'.rep.expiryOf, ← rep'.expiryOf, ← after]
          rfl
        rw [stored, FreePool.expiry_giveBackAll]
        split
        · rename_i given
          exact Or.inr ⟨given.2.1.1, by rw [isDefault]; rfl⟩
        · exact Or.inl rfl
      constructor
      · intro k
        rcases back k with same | ⟨isMember, unset⟩
        · rw [same]
        · simp [isMember, unset]
      · intro k e found
        rcases back k with same | ⟨_, unset⟩
        · exact lasting k e (same ▸ found)
        · rw [unset, Option.some.injEq] at found
          exact Or.inl (by omega)
  | extend keys timeout => cases usage
  | shrink keys => cases usage
  | assign keys timeout allItems pairs => cases usage
  | clear => cases usage

theorem CallRun.keepsMembers {shared : Bool} {final : Redis} {events : List Event}
    (run : CallRun shared s events final) (sound : AllSound s p)
    (usage : ∀ event ∈ events, event.call.isDefaultUsage = true ∧
      ∀ d ∈ deadline, (event.before.now : Int) < d)
    (lasting : ∀ k e, p.expiry k = some e → Lasts deadline e) (k : String) :
    (final.hget k).isSome ↔ (p.expiry k).isSome := by
  induction run generalizing p with
  | done s => rw [sound.rep.hget_isSome]
  | @fire s middle final event rest first _ ih =>
      obtain ⟨⟨elapsed, before⟩, admissible, after⟩ := first
      have started : AllSound event.before p := before ▸ sound.advance elapsed
      rw [List.forall_mem_cons] at usage
      obtain ⟨p', sound', members, lasting'⟩ :=
        Event.keepsMembers shared started admissible usage.1.1 usage.1.2 lasting
      rw [ih (after ▸ sound') usage.2 lasting', members]

theorem lasts_of_stays {shared : Bool} {keys : List String} (rep : Represents s p)
    (ahead : ∀ d ∈ deadline, (s.now : Int) < d) (stays : StaysUntil shared deadline keys s)
    {k : String} (inKeys : k ∈ keys) {e : Int} (found : p.expiry k = some e) :
    Lasts deadline e := by
  by_contra lapses
  rw [Lasts, not_or] at lapses
  obtain ⟨set, sooner⟩ := lapses
  let elapsed := (1000 * e).toNat - s.now
  let reply : ScanReply := ⟨"0", [k]⟩
  let event : Event := ⟨s.advance elapsed, .gc 1 fun _ _ => reply⟩
  have rep' : Represents (s.advance elapsed) p := rep.of_outside_pool rfl rfl rfl
  have isMember : (p.expiry k).isSome := by rw [found]; rfl
  have reached : (1000 * e).toNat ≤ s.now + elapsed := by omega
  have expired : (s.advance elapsed).isExpiryInvalid e = true := by
    have later : (s.advance elapsed).now = s.now + elapsed := rfl
    rw [Redis.isExpiryInvalid, Redis.time, later, Bool.and_eq_true, decide_eq_true_eq,
      decide_eq_true_eq]
    omega
  obtain ⟨_, s', run, rep'', _⟩ := gc_collects Int.one_pos (fun _ _ => reply) rep'
    fun _ => ⟨isMember, trivial⟩
  have after : event.after shared = s' := discard_run run
  have admissible : event.call.Admissible event.before := by
    intro cursor count
    refine ⟨List.nodup_singleton k, ?_⟩
    rw [List.toFinset_cons, List.toFinset_nil, insert_empty_eq, Finset.singleton_subset_iff]
    exact (rep'.mem_keys_iff k).mpr isMember
  have early : ∀ d ∈ deadline, (event.before.now : Int) < d := by
    intro d isDeadline
    have now := ahead d isDeadline
    have later : ¬ d ≤ 1000 * e := fun reaches => sooner ⟨d, isDeadline, reaches⟩
    have before : event.before.now = s.now + elapsed := rfl
    omega
  have still := (stays [event] s' (.fire ⟨⟨elapsed, rfl⟩, admissible, after.symm⟩ (.done s'))
    (by simpa using ⟨rfl, early⟩) k).mpr inKeys
  rw [rep''.hget_isSome, List.foldl_cons, List.foldl_nil, FreePool.expiry_collect, found] at still
  simp [expired] at still

end Usage

section Entries

variable {s : Redis} {L : List String}

theorem Redis.endOf_ahead (s : Redis) (timeout : Int) :
    ∀ d ∈ s.endOf timeout, (s.now : Int) < d := by
  intro d isEnd
  rw [endOf] at isEnd
  split at isEnd
  · cases isEnd
  · cases isEnd
    omega

theorem Redis.lasts_timeoutToExpiry (s : Redis) (timeout : Int) :
    Lasts (s.endOf timeout) (s.timeoutToExpiry timeout) ↔ (0 < timeout → 1000 ∣ s.now) := by
  rw [Lasts, endOf, timeoutToExpiry, time]
  by_cases forever : timeout ≤ 0
  · rw [if_pos forever]
    constructor
    · intro _ positive
      omega
    · intro _
      exact Or.inl (by omega)
  · rw [if_neg forever, if_neg forever]
    constructor
    · rintro (unset | ⟨d, isEnd, later⟩) _
      · omega
      · cases isEnd
        omega
    · intro whole
      have onTheSecond := whole (by omega)
      exact Or.inr ⟨_, rfl, by omega⟩

theorem assign_allSound (wf : WellFormed s L) (unlocked : ∀ k ∈ L, s.locked k = false)
    {keys : List String} (accepted : validateKeys keys = .ok ()) (timeout : Int)
    {allItems pairs : List String}
    (admissible : (Call.assign keys timeout allItems pairs).Admissible s) :
    ∃ s' p', (assign keys timeout allItems pairs s).2 = s' ∧ AllSound s' p' ∧ s'.now = s.now ∧
      ∀ k, p'.expiry k =
        if k ∈ keys then some ((s.expiryOf k).getD (s.timeoutToExpiry timeout)) else none := by
  have rep := wf.represents
  have sound : AllSound s wf.pool := ⟨rep, fun k present _ => unlocked k present⟩
  obtain ⟨unique, members, once, listed⟩ := rep.listings admissible
  obtain ⟨s', run, rep', frame⟩ := assign_completes rep accepted unique members once listed timeout
  obtain ⟨reply, s'', run', _, p', sound'⟩ :=
    assign_sound sound keys unique members once timeout
  cases run.symm.trans run'
  refine ⟨s', p', congrArg Prod.snd run, sound',
    (Redis.now_of_outside frame).trans rfl, fun k => ?_⟩
  rw [← sound'.rep.expiryOf, rep'.expiryOf, rep.expiryOf]
  exact FreePool.expiry_assign members listed _ k

/-- The keys given to `assign` stay for its timeout exactly when no member among them has an expiry
that comes sooner, and no part of a second is cut from the time of a new one. -/
theorem assign_stays_iff (wf : WellFormed s L) (unlocked : ∀ k ∈ L, s.locked k = false)
    (shared : Bool) {keys : List String} (accepted : validateKeys keys = .ok ()) (timeout : Int)
    {allItems pairs : List String}
    (admissible : (Call.assign keys timeout allItems pairs).Admissible s) :
    StaysUntil shared (s.endOf timeout) keys (assign keys timeout allItems pairs s).2 ↔
      (∀ k ∈ keys, ∀ e, s.expiryOf k = some e → Lasts (s.endOf timeout) e) ∧
      (0 < timeout → (∃ k ∈ keys, s.hget k = none) → 1000 ∣ s.now) := by
  obtain ⟨s', p', after, sound', now, expiry⟩ :=
    assign_allSound wf unlocked accepted timeout admissible
  have assigned : ∀ k, (p'.expiry k).isSome ↔ k ∈ keys := by
    intro k
    rw [expiry]
    split <;> simp [*]
  rw [after]
  constructor
  · intro stays
    have lasting := fun k (inKeys : k ∈ keys) e => lasts_of_stays (k := k) (e := e) sound'.rep
      (now ▸ s.endOf_ahead timeout) stays inKeys
    refine ⟨fun k inKeys e found => ?_, fun positive fresh => ?_⟩
    · apply lasting k inKeys
      rw [expiry, if_pos inKeys, found, Option.getD_some]
    · obtain ⟨k, inKeys, absent⟩ := fresh
      have given : p'.expiry k = some (s.timeoutToExpiry timeout) := by
        rw [expiry, if_pos inKeys, Redis.expiryOf, absent]
        rfl
      exact (s.lasts_timeoutToExpiry timeout).mp (lasting k inKeys _ given) positive
  · rintro ⟨kept, whole⟩ events final calls usage k
    rw [CallRun.keepsMembers calls sound' usage, assigned]
    intro j e found
    rw [expiry] at found
    split at found
    · rename_i inKeys
      rw [Option.some.injEq] at found
      cases stored : s.expiryOf j with
      | some old =>
          rw [stored, Option.getD_some] at found
          exact found ▸ kept j inKeys old stored
      | none =>
          rw [stored, Option.getD_none] at found
          have absent : s.hget j = none := Option.map_eq_none_iff.mp stored
          rw [← found, Redis.lasts_timeoutToExpiry]
          exact fun positive => whole positive ⟨j, inKeys, absent⟩
    · cases found

theorem assign_stays_iff_sample :
    StaysUntil false (sampleChain.endOf 60) ["c", "b", "c"]
        (assign ["c", "b", "c"] 60 ["b", "a"] ["b", "c"] sampleChain).2 ↔
      (∀ k ∈ ["c", "b", "c"], ∀ e, sampleChain.expiryOf k = some e →
        Lasts (sampleChain.endOf 60) e) ∧
      ((0 : Int) < 60 → (∃ k ∈ ["c", "b", "c"], sampleChain.hget k = none) →
        1000 ∣ sampleChain.now) :=
  assign_stays_iff sampleChain_wellFormed (by decide) false (by decide) 60
    ⟨by decide, by decide, by decide, by decide⟩

def shortListing : Event := ⟨(Redis.empty 0).advance 0, .extend ["a"] (some 5)⟩

/-- Assigned again for a minute at once, `a` is deleted by a `gc` after five seconds. -/
theorem assigned_key_expires :
    CallRun false (Redis.empty 0) [shortListing] (shortListing.after false) ∧
    validateKeys ["a"] = .ok () ∧
    (Call.assign ["a"] 60 ["a"] ["a"]).Admissible (shortListing.after false) ∧
    ¬ StaysUntil false ((shortListing.after false).endOf 60) ["a"]
      (assign ["a"] 60 ["a"] ["a"] (shortListing.after false)).2 := by
  refine ⟨.fire ⟨⟨0, rfl⟩, trivial, rfl⟩ (.done _), by decide,
    ⟨by decide, by decide, by decide, by decide⟩, fun stays => ?_⟩
  let reassigned := (assign ["a"] 60 ["a"] ["a"] (shortListing.after false)).2
  let collecting : Event := ⟨reassigned.advance 5000, .gc 10 fun _ _ => ⟨"0", ["a"]⟩⟩
  have listed : ["a"].Nodup ∧ ["a"].toFinset ⊆ (reassigned.advance 5000).pool.keys := by decide
  have run : CallRun false reassigned [collecting] (collecting.after false) :=
    .fire ⟨⟨5000, rfl⟩, fun _ _ => listed, rfl⟩ (.done _)
  have early : ∀ d ∈ (shortListing.after false).endOf 60, (collecting.before.now : Int) < d := by
    decide
  have deleted : ((collecting.after false).hget "a").isSome = false := by decide
  have still := (stays [collecting] _ run (by simpa using ⟨rfl, early⟩) "a").mpr (by decide)
  rw [deleted] at still
  cases still

end Entries

end RedisAllocator
