import RedisAllocator.Allocator.Exclusivity

/-!
# Who holds what

The clients' side of the non-shared mode: each allocation a client obtained and
has not released yet.  A lock says `1` and not whose it is, so a release that
comes after another allocation of the same key takes that one's lock away.  As
long as no release does, an allocation stays exclusive for its whole seconds.
-/

set_option autoImplicit false

namespace RedisAllocator

open AbortableScript AbortableScript.Script LabelledRun

/-- An allocation that has not been released. -/
structure Holding (Client : Type) where
  client : Client
  key : String
  deadline : Nat
deriving DecidableEq

inductive Action (Client : Type)
  | malloc (client : Client) (timeout : Timeout) (name : Option String) (cacheTimeout : Timeout)
  /-- `free_keys(key)`, or `release()` of the object that holds it -/
  | release (holding : Holding Client) (timeout : Int)
  | gc (count : Int) (hscan : String → Int → ScanReply)

structure Ledger (Client : Type) where
  redis : Redis
  held : List (Holding Client)

structure Deed (Client : Type) where
  before : Ledger Client
  action : Action Client

section Ledger

variable {Client : Type} [DecidableEq Client]

def Action.call : Action Client → Call
  | .malloc _ timeout name cacheTimeout => .mallocKey timeout name cacheTimeout
  | .release holding timeout => .freeKeys [holding.key] timeout
  | .gc count hscan => .gc count hscan

def Deed.event (deed : Deed Client) : Event := ⟨deed.before.redis, deed.action.call⟩

def Deed.heldAfter (deed : Deed Client) : List (Holding Client) :=
  match deed.action with
  | .malloc client timeout _ _ =>
    match deed.event.reply false with
    | .ok (some k) =>
      deed.before.held ++ [⟨client, k, deed.before.redis.deadline timeout.wholeSeconds⟩]
    | _ => deed.before.held
  | .release holding _ => deed.before.held.erase holding
  | .gc _ _ => deed.before.held

def Deed.after (deed : Deed Client) : Ledger Client := ⟨deed.event.after false, deed.heldAfter⟩

/-- A client releases what it holds, so each allocation at most once. -/
def Action.Permitted (ledger : Ledger Client) : Action Client → Prop
  | .malloc _ _ _ _ => True
  | .release holding _ => holding ∈ ledger.held
  | .gc count hscan => (Call.gc count hscan).Admissible ledger.redis

def LedgerStep (ledger : Ledger Client) (deed : Deed Client) (ledger' : Ledger Client) : Prop :=
  (∃ elapsed, deed.before = ⟨ledger.redis.advance elapsed, ledger.held⟩) ∧
  deed.action.Permitted deed.before ∧ ledger' = deed.after

abbrev LedgerRun : Ledger Client → List (Deed Client) → Ledger Client → Prop := Run LedgerStep

/-- The deed releases no `k` while another allocation of `k` is outstanding. -/
def Deed.TimelyFor (k : String) : Deed Client → Prop
  | ⟨ledger, .release holding _⟩ => holding.key = k →
    ∀ other ∈ ledger.held.erase holding, other.key = k → other.deadline ≤ ledger.redis.now
  | _ => True

instance (k : String) : DecidablePred fun deed : Deed Client => deed.TimelyFor k
  | ⟨_, .malloc _ _ _ _⟩ => isTrue trivial
  | ⟨ledger, .release holding _⟩ => inferInstanceAs (Decidable (holding.key = k →
      ∀ other ∈ ledger.held.erase holding, other.key = k → other.deadline ≤ ledger.redis.now))
  | ⟨_, .gc _ _⟩ => isTrue trivial

def Ledger.Backed (k : String) (ledger : Ledger Client) : Prop :=
  ∀ holding ∈ ledger.held, holding.key = k →
    HeldUntil k ⟨"1", some holding.deadline⟩ ledger.redis

omit [DecidableEq Client] in
theorem Action.Permitted.admissible {ledger : Ledger Client} {action : Action Client}
    (permitted : action.Permitted ledger) : action.call.Admissible ledger.redis := by
  cases action with
  | gc count hscan => exact permitted
  | _ => trivial

omit [DecidableEq Client] in
theorem Deed.not_inserts (deed : Deed Client) (k : String) : ¬ deed.event.Inserts false k := by
  obtain ⟨ledger, action⟩ := deed
  rintro ⟨⟨_, _, call, _⟩ | ⟨_, _, _, _, call, _⟩, _⟩ <;>
  · cases action <;> cases call

omit [DecidableEq Client] in
theorem lapsed_of_deadline {deadline now : Nat} (passed : deadline ≤ now) :
    StringKey.live now ⟨"1", some deadline⟩ = false := decide_eq_false (not_lt.mpr passed)

theorem Deed.keeps_lock {deed : Deed Client} {k : String} {lock : StringKey}
    (admissible : deed.event.call.Admissible deed.event.before)
    (held : HeldUntil k lock deed.before.redis) (notFreed : ¬ deed.event.Frees k) :
    HeldUntil k lock deed.after.redis := held.after admissible notFreed (deed.not_inserts k)

theorem Deed.backed {deed : Deed Client} {k : String}
    (admissible : deed.event.call.Admissible deed.event.before) (timely : deed.TimelyFor k)
    (backed : deed.before.Backed k) : deed.after.Backed k := by
  obtain ⟨ledger, action⟩ := deed
  cases action with
  | gc count hscan =>
      intro holding stillHeld isKey
      exact keeps_lock admissible (backed holding stillHeld isKey) (Event.gc_undisturbed false rfl).1
  | release released timeout =>
      intro holding stillHeld isKey
      have wasHeld := backed holding (List.mem_of_mem_erase stillHeld) isKey
      by_cases sameKey : released.key = k
      · have passed := timely sameKey holding stillHeld isKey
        exact .of_lapsed (lapsed_of_deadline passed) (Event.now_after admissible)
      · apply keeps_lock admissible wasHeld
        rintro ⟨keys, t, call, named⟩
        cases call
        exact sameKey (List.mem_singleton.mp named).symm
  | malloc client timeout name cacheTimeout =>
      have notFreed : ¬ (Deed.event ⟨ledger, .malloc client timeout name cacheTimeout⟩).Frees k := by
        rintro ⟨_, _, call, _⟩
        cases call
      intro holding held isKey
      rw [Deed.after, Deed.heldAfter] at held
      simp only at held
      split at held
      · rename_i j returned
        rcases List.mem_append.mp held with old | new
        · exact keeps_lock admissible (backed holding old isKey) notFreed
        · obtain rfl := List.mem_singleton.mp new
          subst isKey
          have taken := Event.heldUntil_of_returns rfl returned
          by_cases positive : 0 < timeout.wholeSeconds
          · rw [Redis.mallocLock, if_pos positive] at taken
            exact taken
          · refine .of_lapsed (s := ledger.redis) (lapsed_of_deadline ?_)
              (Event.now_after admissible)
            rw [Redis.deadline, Int.toNat_of_nonpos (not_lt.mp positive)]
            exact le_refl _
      · exact keeps_lock admissible (backed holding held isKey) notFreed

/-- If no `k` is released while another allocation of `k` is outstanding, `k` is never returned
while an allocation of it is outstanding. -/
theorem timelyRelease_exclusive {start final : Ledger Client} {deeds : List (Deed Client)}
    (nobody : start.held = []) (run : LedgerRun start deeds final) (k : String)
    (timely : ∀ deed ∈ deeds, deed.TimelyFor k) :
    ∀ deed ∈ deeds, deed.event.Returns false k →
      ∀ holding ∈ deed.before.held, holding.key = k →
        holding.deadline ≤ deed.before.redis.now := by
  intro deed inDeeds returned holding held isKey
  obtain ⟨ledger, _, backed, ⟨elapsed, later⟩, _⟩ := run.fired (Ledger.Backed k) (Deed.TimelyFor k)
    (fun ledger deed ledger' backed timely step => by
      obtain ⟨⟨elapsed, later⟩, permitted, rfl⟩ := step
      apply Deed.backed permitted.admissible timely
      rw [later]
      exact fun holding held isKey => (backed holding held isKey).advance elapsed)
    (fun holding held => by rw [nobody] at held; cases held) timely deed inDeeds
  have started : HeldUntil k ⟨"1", some holding.deadline⟩ deed.event.before := by
    rw [later] at held
    have kept := (backed holding held isKey).advance elapsed
    rw [Deed.event, later]
    exact kept
  exact not_lt.mp (of_decide_eq_false (started.lapsed returned))

end Ledger

/-! ## Three clients and one key -/

def soleLedger : Ledger Nat := ⟨soleStart.after false, []⟩

def firstMalloc : Deed Nat := ⟨soleLedger, .malloc 1 (.int 1) none (.int 60)⟩

def Ledger.advance {Client : Type} (ledger : Ledger Client) (elapsed : Nat) : Ledger Client :=
  ⟨ledger.redis.advance elapsed, ledger.held⟩

/-- The lock of client 1 lapses, `gc` takes the key back and client 2 gets it for a minute. -/
def lateGc : Deed Nat := ⟨firstMalloc.after.advance 1500, .gc 10 fun _ _ => ⟨"0", ["k"]⟩⟩

def secondMalloc : Deed Nat := ⟨lateGc.after, .malloc 2 (.int 60) none (.int 60)⟩

theorem lateGc_permitted : lateGc.action.Permitted lateGc.before := by
  have member : lateGc.before.redis.pool.keys = {"k"} := by decide
  exact fun _ _ => ⟨by simp, by simp [member]⟩

theorem lapsed_run :
    LedgerRun soleLedger [firstMalloc, lateGc, secondMalloc] secondMalloc.after :=
  .fire ⟨⟨0, rfl⟩, trivial, rfl⟩ (.fire ⟨⟨1500, rfl⟩, lateGc_permitted, rfl⟩
    (.fire ⟨⟨0, rfl⟩, trivial, rfl⟩ (.done _)))

theorem timelyRelease_exclusive_sole : 1000 ≤ secondMalloc.before.redis.now :=
  timelyRelease_exclusive rfl lapsed_run "k" (by decide) secondMalloc (by simp) rfl
    ⟨1, "k", 1000⟩ (by decide) rfl

def lateRelease : Deed Nat := ⟨secondMalloc.after.advance 1000, .release ⟨1, "k", 1000⟩ (-1)⟩

def thirdMalloc : Deed Nat := ⟨lateRelease.after, .malloc 3 (.int 60) none (.int 60)⟩

/-- Client 3 gets the key that client 2 holds for almost another minute. -/
theorem lateRelease_takes_allocation :
    LedgerRun soleLedger [firstMalloc, lateGc, secondMalloc, lateRelease, thirdMalloc]
        thirdMalloc.after ∧
      thirdMalloc.event.Returns false "k" ∧
      ∃ holding ∈ thirdMalloc.before.held, holding.client = 2 ∧ holding.key = "k" ∧
        thirdMalloc.before.redis.now < holding.deadline := by
  refine ⟨?_, rfl, ⟨2, "k", 61500⟩, by decide, rfl, rfl, by decide⟩
  exact .fire ⟨⟨0, rfl⟩, trivial, rfl⟩ (.fire ⟨⟨1500, rfl⟩, lateGc_permitted, rfl⟩
    (.fire ⟨⟨0, rfl⟩, trivial, rfl⟩ (.fire ⟨⟨1000, rfl⟩, List.mem_cons_self .., rfl⟩
      (.fire ⟨⟨0, rfl⟩, trivial, rfl⟩ (.done _)))))

end RedisAllocator
