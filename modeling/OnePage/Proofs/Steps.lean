import OnePage.Server.Basic

/-! # Steps on a state, applied to one

What the pieces of a step do to a state that they are given, written out as results and states. -/

namespace OnePage

namespace StateM
variable {σ α β : Type}

@[simp] theorem bind_apply (x : StateM σ α) (f : α → StateM σ β) (s : σ) :
    (x >>= f) s = f (x s).1 (x s).2 := rfl

@[simp] theorem map_apply (f : α → β) (x : StateM σ α) (s : σ) :
    (f <$> x) s = (f (x s).1, (x s).2) := rfl

@[simp] theorem pure_apply (a : α) (s : σ) : (pure a : StateM σ α) s = (a, s) := rfl

@[simp] theorem get_apply (s : σ) : (get : StateM σ σ) s = (s, s) := rfl

@[simp] theorem set_apply (s t : σ) : (set t : StateM σ PUnit) s = (⟨⟩, t) := rfl

@[simp] theorem modify_apply (f : σ → σ) (s : σ) : (modify f : StateM σ PUnit) s = (⟨⟩, f s) := rfl

end StateM

namespace Serving
variable {α β : Type}

@[simp] theorem bind_apply (x : Serving α) (f : α → Serving β) (s : Server) (k : Kernel) :
    (x >>= f) s k = f (x s k).1.1 (x s k).1.2 (x s k).2 := rfl

@[simp] theorem map_apply (f : α → β) (x : Serving α) (s : Server) (k : Kernel) :
    (f <$> x) s k = ((f (x s k).1.1, (x s k).1.2), (x s k).2) := rfl

@[simp] theorem pure_apply (a : α) (s : Server) (k : Kernel) :
    (pure a : Serving α) s k = ((a, s), k) := rfl

@[simp] theorem get_apply (s : Server) (k : Kernel) :
    (get : Serving Server) s k = ((s, s), k) := rfl

@[simp] theorem getThe_apply (s : Server) (k : Kernel) :
    (getThe Kernel : Serving Kernel) s k = ((k, s), k) := rfl

/-- The same, of what `getThe` unfolds to. -/
@[simp] theorem getKernel_apply (s : Server) (k : Kernel) :
    (@get Kernel Serving (@instMonadStateOfMonadStateOf Kernel Serving _)) s k = ((k, s), k) := rfl

@[simp] theorem set_apply (s t : Server) (k : Kernel) :
    (set t : Serving PUnit) s k = ((⟨⟩, t), k) := rfl

@[simp] theorem modify_apply (f : Server → Server) (s : Server) (k : Kernel) :
    (modify f : Serving PUnit) s k = ((⟨⟩, f s), k) := rfl

@[simp] theorem lift_apply (x : Sys α) (s : Server) (k : Kernel) :
    (liftM x : Serving α) s k = (((x k).1, s), (x k).2) := rfl

end Serving

@[simp] theorem Sys.wallClock_apply (k : Kernel) :
    Sys.wallClock k = (k.secondsAt k.trace.size, k) := rfl

end OnePage
