import RedisAllocator.Allocator.LuaLibrary

/-!
# What the pointer functions leave alone

None of the functions that move keys in and out of the free list writes outside
the pool hash and its two pointers, whatever state they start from and also when
an assert stops them.
-/

set_option autoImplicit false

namespace RedisAllocator

open AbortableScript AbortableScript.Script

theorem luaAssert_keeps (holds : Prop) [Decidable holds] (message : String) :
    Keeps Redis.outside (luaAssert holds message) := Keeps.ite (Keeps.pure _) (Keeps.abort _)

theorem assertSome_keeps {α : Type} (value : Option α) (message : String) :
    Keeps Redis.outside (assertSome value message) := by
  cases value with
  | none => exact Keeps.abort _
  | some a => exact Keeps.pure a

theorem hget_keeps (key : String) : Keeps Redis.outside (Command.hget key) := Keeps.read _

theorem hset_keeps (key : String) (value : PoolEntry) :
    Keeps Redis.outside (Command.hset key value) := Keeps.write fun _ => rfl

theorem hdel_keeps (key : String) : Keeps Redis.outside (Command.hdel key) :=
  Keeps.write fun _ => rfl

theorem setCurrentHead_keeps (pointer : String) : Keeps Redis.outside (setCurrentHead pointer) :=
  Keeps.write fun _ => rfl

theorem setCurrentTail_keeps (pointer : String) : Keeps Redis.outside (setCurrentTail pointer) :=
  Keeps.write fun _ => rfl

theorem emptyPointers_keeps : Keeps Redis.outside emptyPointers :=
  Keeps.bind (setCurrentHead_keeps _) fun _ => setCurrentTail_keeps _

theorem storedSome_keeps (key message : String) :
    Keeps Redis.outside (do assertSome (← Command.hget key) message) :=
  Keeps.bind (hget_keeps key) fun value => assertSome_keeps value message

theorem assertPushable_keeps (itemName : String) : Keeps Redis.outside (assertPushable itemName) := by
  refine Keeps.bind (hget_keeps itemName) fun value => ?_
  cases value with
  | none => exact Keeps.pure _
  | some item => exact Keeps.bind (luaAssert_keeps _ _) fun _ => luaAssert_keeps _ _

theorem linkBehindTail_keeps (head tail itemName : String) :
    Keeps Redis.outside (linkBehindTail head tail itemName) :=
  Keeps.ite (setCurrentHead_keeps _)
    (Keeps.bind (hget_keeps tail) fun value =>
      Keeps.bind (assertSome_keeps value _) fun _ =>
        Keeps.bind (luaAssert_keeps _ _) fun _ => hset_keeps _ _)

theorem pushToTail_keeps (itemName : String) (expiry : Int) :
    Keeps Redis.outside (pushToTail itemName expiry) :=
  Keeps.bind (Keeps.read _) fun _ => Keeps.bind (Keeps.read _) fun _ =>
    Keeps.bind (assertPushable_keeps itemName) fun _ => Keeps.bind (hset_keeps _ _) fun _ =>
      Keeps.bind (linkBehindTail_keeps _ _ _) fun _ => setCurrentTail_keeps _

theorem advanceHeadAfterRemoval_keeps (next : String) :
    Keeps Redis.outside (advanceHeadAfterRemoval next) := by
  refine Keeps.ite emptyPointers_keeps (Keeps.bind (hget_keeps next) fun value => ?_)
  cases value with
  | none => exact emptyPointers_keeps
  | some val => exact Keeps.bind (hset_keeps _ _) fun _ => setCurrentHead_keeps _

theorem unlinkHead_keeps (next : String) : Keeps Redis.outside (unlinkHead next) :=
  Keeps.ite emptyPointers_keeps
    (Keeps.bind (hget_keeps next) fun value => Keeps.bind (assertSome_keeps value _) fun _ =>
      Keeps.bind (hset_keeps _ _) fun _ => setCurrentHead_keeps _)

theorem popFromHead_keeps (fuel : Nat) : Keeps Redis.outside (popFromHead fuel) := by
  induction fuel with
  | zero => exact Keeps.abort _
  | succ fuel ih =>
      refine Keeps.bind (Keeps.read _) fun head => Keeps.ite (Keeps.pure _) ?_
      refine Keeps.bind (hget_keeps head) fun value =>
        Keeps.bind (assertSome_keeps value _) fun val => Keeps.bind (Keeps.read _) fun expired =>
          Keeps.bind (Keeps.read _) fun locked => ?_
      have skip : ∀ drop : LuaScript Unit, Keeps Redis.outside drop → Keeps Redis.outside (do
          drop
          advanceHeadAfterRemoval val.next
          popFromHead fuel) := fun drop dropped =>
        Keeps.bind dropped fun _ => Keeps.bind (advanceHeadAfterRemoval_keeps _) fun _ => ih
      exact Keeps.ite (skip _ (hdel_keeps head)) (Keeps.ite (skip _ (hset_keeps head _))
        (Keeps.bind (unlinkHead_keeps _) fun _ => Keeps.bind (hset_keeps head _) fun _ =>
          Keeps.pure _))

theorem setItemAllocated_keeps (itemName : String) (given : Option PoolEntry) :
    Keeps Redis.outside (setItemAllocated itemName given) := by
  have lookup : Keeps Redis.outside (givenOrStored itemName given) := by
    cases given with
    | none => exact storedSome_keeps itemName _
    | some val => exact Keeps.pure val
  have relinkPrev_keeps : ∀ prev next, Keeps Redis.outside (relinkPrev prev next) :=
    fun prev next => Keeps.ite (setCurrentHead_keeps _)
      (Keeps.bind (hget_keeps prev) fun value => Keeps.bind (assertSome_keeps value _) fun _ =>
        hset_keeps _ _)
  have relinkNext_keeps : ∀ prev next, Keeps Redis.outside (relinkNext prev next) :=
    fun prev next => Keeps.ite (setCurrentTail_keeps _)
      (Keeps.bind (hget_keeps next) fun value => Keeps.bind (assertSome_keeps value _) fun _ =>
        hset_keeps _ _)
  have drop : ∀ e, Keeps Redis.outside (dropIfExpired itemName e) := fun e =>
    Keeps.bind (Keeps.read _) fun _ => Keeps.ite (hdel_keeps itemName) (Keeps.pure _)
  exact Keeps.bind lookup fun val => Keeps.ite (luaAssert_keeps _ _)
    (Keeps.bind (luaAssert_keeps _ _) fun _ => Keeps.bind (drop _) fun _ =>
      Keeps.bind (relinkPrev_keeps _ _) fun _ => Keeps.bind (relinkNext_keeps _ _) fun _ =>
        hset_keeps itemName _)

theorem checkItemHealth_keeps (itemName : String) :
    Keeps Redis.outside (checkItemHealth itemName) :=
  Keeps.bind (hget_keeps itemName) fun value => Keeps.bind (assertSome_keeps value _) fun _ =>
    Keeps.bind (Keeps.read _) fun _ => Keeps.ite
      (Keeps.bind (setItemAllocated_keeps _ _) fun _ => hdel_keeps itemName)
      (Keeps.bind (Keeps.read _) fun _ => Keeps.ite
        (Keeps.ite (Keeps.pure _) (pushToTail_keeps _ _))
        (Keeps.ite (setItemAllocated_keeps _ _) (Keeps.pure _)))

end RedisAllocator
