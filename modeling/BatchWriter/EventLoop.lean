/-!
# Event loops

A loop runs what is ready in the order in which it became ready. A closed loop drops
what was ready and accepts nothing more.
-/

set_option autoImplicit false

namespace BatchWriter

inductive LoopName where
  | main
  | alt
  deriving DecidableEq, Repr

def LoopName.other : LoopName → LoopName
  | .main => .alt
  | .alt => .main

structure EventLoop (κ : Type) where
  ready : List κ := []
  closed : Bool := false

namespace EventLoop

variable {κ : Type}

def post (l : EventLoop κ) (callback : κ) : EventLoop κ :=
  if l.closed then l else { l with ready := l.ready ++ [callback] }

def close (_ : EventLoop κ) : EventLoop κ := { ready := [], closed := true }

def pop? (l : EventLoop κ) : Option (κ × EventLoop κ) :=
  match l.ready with
  | [] => none
  | callback :: rest => some (callback, { l with ready := rest })

theorem ready_post_of_open {l : EventLoop κ} (h : l.closed = false) (callback : κ) :
    (l.post callback).ready = l.ready ++ [callback] := by
  simp [post, h]

@[simp] theorem closed_post (l : EventLoop κ) (callback : κ) :
    (l.post callback).closed = l.closed := by
  unfold post
  split <;> rfl

end EventLoop
end BatchWriter
