import Nexus.Lib.Run

/-!
# A token bucket that survives restarts

A service is paid for in advance out of a bucket of credit that time refills.
Between the payment and the service a job can be pending; a number of whole
jobs is saved every now and then, and a restart loses the pending job and
refills the bucket from the number saved, however old it is.

What a restart can win back is then the larger of the saved jobs and of what is
in the bucket or paid for. Together with the jobs already served that is a
potential which only the passing of time raises, so the served jobs of any run
are bounded by the initial credit and the time that passed.
-/

namespace Nexus.Lib

/-- What is left in the bucket, whether a paid job is pending, the number of
jobs last saved, and the number served. -/
structure Account where
  bucket : ℕ
  pending : Bool
  saved : ℕ
  served : ℕ

namespace Account

variable (price : ℕ)

/-- One step of an account at a price per job, over some elapsed time. -/
inductive Step (a : Account) : ℕ → Account → Prop
  | idle : Step a 0 a
  /-- a job is paid for; it may be dropped instead of becoming pending -/
  | charge (pending : Bool) (hbucket : price ≤ a.bucket) :
      Step a 0 { a with bucket := a.bucket - price, pending := pending }
  /-- time passes, the bucket is saved, and a pending job is served -/
  | earn {elapsed bucket saved : ℕ} (hbucket : bucket ≤ a.bucket + elapsed)
      (hsaved : saved * price ≤ bucket) :
      Step a elapsed ⟨bucket, false, saved, a.served + a.pending.toNat⟩
  | restart : Step a 0 ⟨a.saved * price, false, a.saved, a.served⟩

/-- The credit spent on served jobs, and the most that is left to spend. -/
def potential (a : Account) : ℕ :=
  a.served * price
    + max (a.bucket + a.pending.toNat * price) (a.saved * price)

variable {price}

/-- Only time raises the potential. -/
theorem Step.potential_le {a b : Account} {elapsed : ℕ}
    (h : Step price a elapsed b) :
    b.potential price ≤ a.potential price + elapsed := by
  unfold potential
  cases h with
  | idle => omega
  | charge pending hbucket =>
      -- the price leaves the bucket and at most returns as a pending job
      have hpending : pending.toNat * price ≤ price := by
        cases pending <;> simp
      simp only
      omega
  | earn hbucket hsaved =>
      simp only [Bool.toNat_false, Nat.add_mul]
      omega
  | restart =>
      simp only [Bool.toNat_false]
      omega

theorem served_le_potential (a : Account) :
    a.served * price ≤ a.potential price :=
  Nat.le_add_right _ _

end Account

section

variable {σ α : Type*} {step : σ → α → σ} {price : ℕ}

/-- A system whose steps are steps of an account serves no more than the
initial potential and the time of the run pay for. -/
theorem served_le {P : σ → Prop} (account : σ → Account) (elapsed : α → ℕ)
    (hP : ∀ s a, P s → P (step s a))
    (hstep : ∀ s a, P s →
      (account s).Step price (elapsed a) (account (step s a)))
    {s : σ} (hs : P s) (ops : List α) :
    (account (run step s ops)).served * price ≤
      (account s).potential price + (ops.map elapsed).sum := by
  have hrun := run_potential (fun s => (account s).potential price) elapsed hP
    (fun s a hs => (hstep s a hs).potential_le) hs ops
  exact (Account.served_le_potential _).trans hrun

end

end Nexus.Lib
