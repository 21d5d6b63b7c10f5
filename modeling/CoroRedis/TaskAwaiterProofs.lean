import Mathlib.Data.List.Basic

/-! # `task_awaiter`

    The object behind every `co_await`: whether it wants to pause, the handle
    of the coroutine it suspended, and the slot `coro_tmp_return_` through
    which a callback passes a value to `await_resume`.  The two stored
    callbacks are what the machines built on top define per kind of awaiter,
    so only the data is kept here.

    `STORAGE` is the slot's type: a reply pointer for commands, a context
    pointer for `coro_connect`, the client pointer for `fetch_coro_conn`. -/

namespace TaskAwaiters

/-- A coroutine, as `coroutine_handle<>` names it. -/
abbrev CoroHandle := Nat

/-- The address of an awaiter.  Every `co_await` of a fresh awaiter gets an
    address that was not used before. -/
abbrev AwaiterPtr := Nat

/-- `task_awaiter<CORO_RET, STORAGE_T>`. -/
structure TaskAwaiter (STORAGE : Type) where
  wantPause : Bool
  hCoro : Option CoroHandle
  coroTmpReturn : Option STORAGE

namespace TaskAwaiter

variable {STORAGE : Type}

/-- The constructor that takes the two callbacks. -/
def ofCallbacks : TaskAwaiter STORAGE := ⟨true, none, none⟩

/-- `await_ready`. -/
def awaitReady (aw : TaskAwaiter STORAGE) : Bool := !aw.wantPause

/-- `await_suspend`, up to the call of the suspend callback. -/
def awaitSuspend (aw : TaskAwaiter STORAGE) (h : CoroHandle) :
    TaskAwaiter STORAGE := { aw with hCoro := some h }

/-- `set_coro_return`. -/
def setCoroReturn (aw : TaskAwaiter STORAGE) (ret : STORAGE) :
    TaskAwaiter STORAGE := { aw with coroTmpReturn := some ret }

/-- What a `co_await` of a fresh awaiter leaves when the suspend callback
    starts. -/
def suspended (h : CoroHandle) : TaskAwaiter STORAGE :=
  ofCallbacks.awaitSuspend h

@[simp] theorem suspended_hCoro (h : CoroHandle) :
    (suspended h : TaskAwaiter STORAGE).hCoro = some h := rfl

@[simp] theorem suspended_coroTmpReturn (h : CoroHandle) :
    (suspended h : TaskAwaiter STORAGE).coroTmpReturn = none := rfl

@[simp] theorem setCoroReturn_hCoro (aw : TaskAwaiter STORAGE) (ret : STORAGE) :
    (aw.setCoroReturn ret).hCoro = aw.hCoro := rfl

@[simp] theorem setCoroReturn_coroTmpReturn (aw : TaskAwaiter STORAGE)
    (ret : STORAGE) : (aw.setCoroReturn ret).coroTmpReturn = some ret := rfl

end TaskAwaiter

end TaskAwaiters
