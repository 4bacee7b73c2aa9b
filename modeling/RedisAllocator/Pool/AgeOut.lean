import RedisAllocator.Allocator.Exclusivity
import RedisAllocator.Pool.Handouts

/-!
# Members that are no longer reported

An updater that lists its resources again and again through `extend` gives every
member the expiry of its last listing.  A run of listings, anonymous allocations,
default `free_keys` and garbage collections keeps that expiry, except that
`free_keys` replaces it when it takes back a locked member.
-/

set_option autoImplicit false

namespace RedisAllocator

open AbortableScript AbortableScript.Script LabelledRun

/-- The calls of a deployment whose members come from an updater with an expiry. -/
def Call.isTurnover : Call → Bool
  | .extend _ (some duration) => 0 < duration
  | .mallocKey _ name _ => name.getD "" = ""
  | .freeKeys _ timeout => timeout = -1
  | .gc _ _ => true
  | _ => false

/-- An accepted `extend` that contains `k` -/
def Event.lists (k : String) (event : Event) : Bool :=
  match event.call with
  | .extend keys _ => decide (k ∈ keys) && (validateKeys keys).isOk
  | _ => false

/-- `free_keys` finds `k` locked and a member. -/
def Event.takesBack (k : String) (event : Event) : Bool :=
  match event.call with
  | .freeKeys keys _ => decide (k ∈ keys) && event.before.locked k && (event.before.hget k).isSome
  | _ => false

/-- The last event that listed `k`, in a past told from its end. -/
def lastListing (k : String) (past : List Event) : Option Event := past.find? (·.lists k)

def sinceListing (k : String) (past : List Event) : List Event := past.takeWhile (!·.lists k)

/-- A listing sets the expiry `e` of what it contains. -/
def Event.Dates (event : Event) (e : Int) : Prop :=
  ∃ keys duration, event.call = .extend keys (some duration) ∧ 0 < duration ∧
    e = event.before.time + duration

/-- Every member was listed, and its expiry is that of its last listing unless it was taken back. -/
def Dated (past : List Event) (p : FreePool String) : Prop :=
  ∀ k e, p.expiry k = some e → ∃ listing, lastListing k past = some listing ∧
    ((∀ event ∈ sinceListing k past, event.takesBack k = false) → listing.Dates e)

section Dated

variable {past : List Event} {p p' : FreePool String} {event : Event} {k : String}

theorem lastListing_cons (unlisted : event.lists k = false) :
    lastListing k (event :: past) = lastListing k past :=
  List.find?_cons_of_neg (by simp [unlisted])

theorem sinceListing_cons (unlisted : event.lists k = false) :
    sinceListing k (event :: past) = event :: sinceListing k past :=
  List.takeWhile_cons_of_pos (by simp [unlisted])

theorem Dated.later (dated : Dated past p) (unlisted : ∀ k, event.lists k = false)
    (members : ∀ k e, p'.expiry k = some e → ∃ old, p.expiry k = some old ∧
      (event.takesBack k = false → e = old)) : Dated (event :: past) p' := by
  intro k e found
  obtain ⟨old, before, same⟩ := members k e found
  obtain ⟨listing, last, keeps⟩ := dated k old before
  refine ⟨listing, (lastListing_cons (unlisted k)).trans last, fun spared => ?_⟩
  rw [sinceListing_cons (unlisted k), List.forall_mem_cons] at spared
  rw [same spared.1]
  exact keeps spared.2

theorem Drops.expiry_eq {expired : Int → Bool} (drops : Drops expired p p') {e : Int}
    (found : p'.expiry k = some e) : p.expiry k = some e := by
  rcases drops k with same | ⟨gone, _⟩
  · rw [← same, found]
  · rw [gone] at found
    cases found

end Dated

theorem Event.lists_iff {event : Event} {keys : List String} {timeout : Option Int} {k : String}
    (call : event.call = .extend keys timeout) :
    event.lists k = true ↔ k ∈ keys ∧ validateKeys keys = .ok () := by
  rw [Event.lists, call]
  cases valid : validateKeys keys <;> simp [Except.isOk, Except.toBool, valid]

theorem Dated.step (shared : Bool) {past : List Event} {p : FreePool String} {event : Event}
    (dated : Dated past p) (sound : AllSound event.before p)
    (admissible : event.call.Admissible event.before) (turnover : event.call.isTurnover = true) :
    ∃ p', AllSound (event.after shared) p' ∧ Dated (event :: past) p' := by
  obtain ⟨before, call⟩ := event
  cases call with
  | extend keys timeout =>
      cases timeout with
      | none => cases turnover
      | some duration =>
          have positive : 0 < duration := of_decide_eq_true turnover
          obtain ⟨reply, s', run, _, p', sound', set⟩ :=
            extend_sound sound keys (some duration)
          have after : Event.after shared ⟨before, .extend keys (some duration)⟩ = s' :=
            discard_run run
          refine ⟨p', after ▸ sound', fun k e found => ?_⟩
          rw [set k] at found
          cases isListed : Event.lists k ⟨before, .extend keys (some duration)⟩ with
          | true =>
              rw [if_pos ((Event.lists_iff rfl).mp isListed), Option.some.injEq, Option.getD_some,
                Redis.timeoutToExpiry, if_neg (not_le.mpr positive)] at found
              exact ⟨_, List.find?_cons_of_pos isListed, fun _ =>
                ⟨keys, duration, rfl, positive, found.symm⟩⟩
          | false =>
              have notListed : ¬ (k ∈ keys ∧ validateKeys keys = .ok ()) := fun both => by
                rw [(Event.lists_iff rfl).mpr both] at isListed
                cases isListed
              rw [if_neg notListed] at found
              obtain ⟨listing, last, keeps⟩ := dated k e found
              refine ⟨listing, (lastListing_cons isListed).trans last, fun spared => keeps ?_⟩
              rw [sinceListing_cons isListed, List.forall_mem_cons] at spared
              exact spared.2
  | mallocKey timeout name cacheTimeout =>
      obtain ⟨reply, s', run, _, p', sound', drops⟩ := mallocScript_sound sound shared
        timeout.wholeSeconds (name.getD "") cacheTimeout.wholeSeconds
      have after : Event.after shared ⟨before, .mallocKey timeout name cacheTimeout⟩ = s' :=
        congrArg Prod.snd run
      exact ⟨p', after ▸ sound', dated.later (fun _ => rfl)
        fun k e found => ⟨e, drops.expiry_eq found, fun _ => rfl⟩⟩
  | freeKeys keys timeout =>
      obtain ⟨s', run, p', sound', renews, spared⟩ :=
        freeKeys_sound sound (fun _ _ => trivial) timeout
      have after : Event.after shared ⟨before, .freeKeys keys timeout⟩ = s' :=
        discard_run run
      refine ⟨p', after ▸ sound', dated.later (fun _ => rfl) fun k e found => ?_⟩
      rcases renews k with same | ⟨named, isMember, _⟩
      · exact ⟨e, same ▸ found, fun _ => rfl⟩
      · obtain ⟨old, stored⟩ := Option.isSome_iff_exists.mp isMember
        refine ⟨old, stored, fun left => ?_⟩
        have unlocked : before.locked k = false := by
          rw [← sound.rep.hget_isSome] at isMember
          simpa [Event.takesBack, named, isMember] using left
        rw [spared k unlocked, stored, Option.some.injEq] at found
        exact found.symm
  | gc count hscan =>
      have member : ∀ k, k ∈ before.pool.keys ↔ (p.expiry k).isSome := sound.rep.mem_keys_iff
      obtain ⟨reply, s', run, _, p', sound', drops⟩ := gc_sound sound count
        (fun cursor => (admissible cursor count).1) (fun cursor k inItems =>
          (member k).mp ((admissible cursor count).2 (List.mem_toFinset.mpr inItems)))
      have after : Event.after shared ⟨before, .gc count hscan⟩ = s' :=
        discard_run run
      exact ⟨p', after ▸ sound', dated.later (fun _ => rfl)
        fun k e found => ⟨e, drops.expiry_eq found, fun _ => rfl⟩⟩
  | shrink keys => cases turnover
  | assign keys timeout allItems pairs => cases turnover
  | clear => cases turnover

theorem Event.call_of_returns {shared : Bool} {event : Event} {k : String}
    (returned : event.Returns shared k) :
    ∃ timeout name cacheTimeout, event.call = .mallocKey timeout name cacheTimeout := by
  obtain ⟨s, call⟩ := event
  cases call with
  | mallocKey timeout name cacheTimeout => exact ⟨timeout, name, cacheTimeout, rfl⟩
  | _ => exact absurd returned (discard_ne_some _ s k)

/-- `listing` sets an expiry that `event` still waits for. -/
def Event.Outlasts (listing event : Event) : Prop :=
  ∃ keys duration, listing.call = .extend keys (some duration) ∧
    (event.before.now : Int) ≤ listing.before.now + 1000 * duration

theorem Event.Dates.outlasts {listing event : Event} {e : Int} (dates : listing.Dates e)
    (unexpired : event.before.isExpiryInvalid e = false) : listing.Outlasts event := by
  obtain ⟨keys, duration, call, positive, rfl⟩ := dates
  refine ⟨keys, duration, call, ?_⟩
  have pending := Redis.isExpiryInvalid_eq_false.mp unexpired
  rw [Redis.time, Redis.time] at pending
  omega

theorem Dated.returned {shared : Bool} {past : List Event} {p : FreePool String} {event : Event}
    {k : String} (dated : Dated past p) (sound : AllSound event.before p)
    (turnover : event.call.isTurnover = true) (returned : event.Returns shared k)
    (left : ∀ since ∈ sinceListing k past, since.takesBack k = false) :
    ∃ listing, lastListing k past = some listing ∧ listing.Outlasts event := by
  obtain ⟨timeout, name, cacheTimeout, call⟩ := event.call_of_returns returned
  have anonymous : name.getD "" = "" := by
    rw [call] at turnover
    exact of_decide_eq_true turnover
  have unbound : event.before.boundKey (name.getD "") = none := by
    rw [Redis.boundKey, if_pos anonymous]
  rw [Event.Returns, Event.reply, call] at returned
  have first := mallocScript_pops_available _ _ shared sound.rep unbound returned
  obtain ⟨e, found, unexpired⟩ := FreePool.unexpired_of_available first
  obtain ⟨listing, last, dates⟩ := dated k e found
  exact ⟨listing, last, (dates left).outlasts unexpired⟩

theorem CallRun.dated {shared : Bool} {s final : Redis} {events : List Event}
    (run : CallRun shared s events final) {past : List Event} {p : FreePool String}
    (sound : AllSound s p) (dated : Dated past p)
    (turnover : ∀ event ∈ events, event.call.isTurnover = true) :
    ∀ earlier event later, events = earlier ++ event :: later →
      ∃ q, AllSound event.before q ∧ Dated (earlier.reverse ++ past) q := by
  induction run generalizing past p with
  | done s =>
      intro earlier event later split
      simp at split
  | @fire s middle final first rest step _ ih =>
      intro earlier event later split
      obtain ⟨⟨elapsed, before⟩, admissible, after⟩ := step
      have started : AllSound first.before p := before ▸ sound.advance elapsed
      cases earlier with
      | nil =>
          cases split
          exact ⟨p, started, dated⟩
      | cons head tail =>
          cases split
          obtain ⟨p', sound', dated'⟩ :=
            dated.step shared started admissible (turnover first (by simp))
          obtain ⟨q, atEvent, still⟩ := ih (after ▸ sound') dated'
            (fun other inRest => turnover other (List.mem_cons_of_mem _ inRest)) tail event later rfl
          exact ⟨q, atEvent, by simpa using still⟩

/-- A key is handed out no later than its last listing allows, unless it was taken back since. -/
theorem callRun_agesOut (shared : Bool) {start final : Redis} {events : List Event}
    (noEntry : start.pool = ∅) (head : start.headPointer = "") (tail : start.tailPointer = "")
    (run : CallRun shared start events final)
    (turnover : ∀ event ∈ events, event.call.isTurnover = true)
    {earlier later : List Event} {event : Event} (split : events = earlier ++ event :: later)
    {k : String} (returned : event.Returns shared k)
    (left : ∀ since ∈ sinceListing k earlier.reverse, since.takesBack k = false) :
    ∃ listing, lastListing k earlier.reverse = some listing ∧ listing.Outlasts event := by
  have undated : Dated [] FreePool.empty := fun k e found => by cases found
  obtain ⟨p, sound, dated⟩ := CallRun.dated run (empty_sound noEntry head tail) undated turnover
    earlier event later split
  rw [List.append_nil] at dated
  exact dated.returned sound (turnover event (split ▸ by simp)) returned left

/-! ### A member listed for five seconds -/

def agingListing : Event := ⟨(Redis.empty 0).advance 0, .extend ["a"] (some 5)⟩

def agingMalloc : Event :=
  ⟨(agingListing.after false).advance 1000, .mallocKey (.int 1) none (.int 60)⟩

def agingGc : Event :=
  ⟨(agingMalloc.after false).advance 1000, .gc 5 fun _ _ => ⟨"0", ["a"]⟩⟩

def agingAgain : Event :=
  ⟨(agingGc.after false).advance 1000, .mallocKey (.int 30) none (.int 60)⟩

theorem aging_run : CallRun false (Redis.empty 0)
    [agingListing, agingMalloc, agingGc, agingAgain] (agingAgain.after false) := by
  have member : ["a"].toFinset ⊆ agingGc.before.pool.keys := by decide
  exact .fire ⟨⟨0, rfl⟩, trivial, rfl⟩ (.fire ⟨⟨1000, rfl⟩, trivial, rfl⟩
    (.fire ⟨⟨1000, rfl⟩, fun _ _ => ⟨by simp, member⟩, rfl⟩
      (.fire ⟨⟨1000, rfl⟩, trivial, rfl⟩ (.done _))))

theorem callRun_agesOut_aging :
    ∃ listing, lastListing "a" [agingListing, agingMalloc, agingGc].reverse = some listing ∧
      listing.Outlasts agingAgain :=
  callRun_agesOut false rfl rfl rfl aging_run (by decide) rfl (by rfl) (by decide)

def agingFree : Event := ⟨(agingMalloc.after false).advance 500, .freeKeys ["a"] (-1)⟩

def agingLate : Event :=
  ⟨(agingFree.after false).advance 100000, .mallocKey (.int 30) none (.int 60)⟩

/-- Freed half a second later, the key is handed out more than a minute past its five seconds. -/
theorem freed_key_never_ages :
    CallRun false (Redis.empty 0) [agingListing, agingMalloc, agingFree, agingLate]
      (agingLate.after false) ∧
    (∀ event ∈ [agingListing, agingMalloc, agingFree, agingLate], event.call.isTurnover = true) ∧
    agingLate.Returns false "a" ∧
    ¬ ∃ listing, lastListing "a" [agingListing, agingMalloc, agingFree].reverse = some listing ∧
      listing.Outlasts agingLate := by
  refine ⟨.fire ⟨⟨0, rfl⟩, trivial, rfl⟩ (.fire ⟨⟨1000, rfl⟩, trivial, rfl⟩
    (.fire ⟨⟨500, rfl⟩, trivial, rfl⟩ (.fire ⟨⟨100000, rfl⟩, trivial, rfl⟩ (.done _)))),
    by decide, by rfl, ?_⟩
  rintro ⟨listing, last, keys, duration, call, waits⟩
  have isListing : listing = agingListing := (Option.some.inj last).symm
  subst isListing
  cases call
  revert waits
  decide

end RedisAllocator
