import Mathlib.Data.Multiset.Count
import Mathlib.Data.Multiset.AddSub
import SwarmLoRA.Machine.System

namespace Machine

variable {α State Label : Type} [DecidableEq α]

inductive Event (α : Type) where
  | demanded (a : α)
  | withdrawn (a : α)
  | ordered (a : α)
  | delivered (a : α)
  deriving DecidableEq

/-- The demands and the orders that are open. Orders are backed if there are no more of a kind than
there are demands of it. -/
structure Account (α : Type) where
  demands : Multiset α
  orders : Multiset α

namespace Account

variable {x : Account α} {e : Event α} {events more : List (Event α)} {l : List α}
  {P Q : Account α → Event α → Prop}

def apply (x : Account α) : Event α → Account α
  | .demanded a => { x with demands := a ::ₘ x.demands }
  | .withdrawn a => { x with demands := x.demands.erase a }
  | .ordered a => { x with orders := a ::ₘ x.orders }
  | .delivered a => { x with orders := x.orders.erase a }

def run (x : Account α) (events : List (Event α)) : Account α := events.foldl apply x

/-- The kind of the event has a demand without an order. -/
def Spare (x : Account α) : Event α → Prop
  | .withdrawn a | .ordered a => x.orders.count a < x.demands.count a
  | .demanded _ | .delivered _ => True

/-- There are as many demands as orders when an order is placed, with the new one. -/
def Moderate (x : Account α) : Event α → Prop
  | .ordered _ => x.orders.card + 1 ≤ x.demands.card
  | .demanded _ | .withdrawn _ | .delivered _ => True

/-- What holds of every event at the time when it happens. -/
def Always (P : Account α → Event α → Prop) : Account α → List (Event α) → Prop
  | _, [] => True
  | x, e :: rest => P x e ∧ Always P (x.apply e) rest

instance (x : Account α) (e : Event α) : Decidable (x.Spare e) :=
  match e with
  | .withdrawn a | .ordered a => inferInstanceAs (Decidable (x.orders.count a < x.demands.count a))
  | .demanded _ | .delivered _ => inferInstanceAs (Decidable True)

instance (x : Account α) (e : Event α) : Decidable (x.Moderate e) :=
  match e with
  | .ordered _ => inferInstanceAs (Decidable (x.orders.card + 1 ≤ x.demands.card))
  | .demanded _ | .withdrawn _ | .delivered _ => inferInstanceAs (Decidable True)

instance decidableAlways [∀ x e, Decidable (P x e)] :
    ∀ (x : Account α) (events : List (Event α)), Decidable (Always P x events)
  | _, [] => inferInstanceAs (Decidable True)
  | x, e :: rest =>
      have := decidableAlways (x.apply e) rest
      inferInstanceAs (Decidable (P x e ∧ Always P (x.apply e) rest))

theorem run_append : x.run (events ++ more) = (x.run events).run more :=
  List.foldl_append

theorem run_demanded : x.run (l.map .demanded) = { x with demands := l + x.demands } := by
  induction l generalizing x with
  | nil =>
      rw [Multiset.coe_nil, Multiset.zero_add]
      rfl
  | cons a rest ih =>
      change (x.apply (.demanded a)).run (rest.map .demanded) = _
      rw [ih, ← Multiset.cons_coe]
      simp only [apply, Multiset.cons_add, Multiset.add_cons]

theorem run_ordered : x.run (l.map .ordered) = { x with orders := l + x.orders } := by
  induction l generalizing x with
  | nil =>
      rw [Multiset.coe_nil, Multiset.zero_add]
      rfl
  | cons a rest ih =>
      change (x.apply (.ordered a)).run (rest.map .ordered) = _
      rw [ih, ← Multiset.cons_coe]
      simp only [apply, Multiset.cons_add, Multiset.add_cons]

theorem run_withdrawn : x.run (l.map .withdrawn) = { x with demands := x.demands - l } := by
  induction l generalizing x with
  | nil =>
      rw [Multiset.coe_nil, Multiset.sub_zero]
      rfl
  | cons a rest ih =>
      change (x.apply (.withdrawn a)).run (rest.map .withdrawn) = _
      rw [ih, ← Multiset.cons_coe, Multiset.sub_cons]
      rfl

theorem run_delivered : x.run (l.map .delivered) = { x with orders := x.orders - l } := by
  induction l generalizing x with
  | nil =>
      rw [Multiset.coe_nil, Multiset.sub_zero]
      rfl
  | cons a rest ih =>
      change (x.apply (.delivered a)).run (rest.map .delivered) = _
      rw [ih, ← Multiset.cons_coe, Multiset.sub_cons]
      rfl

theorem run_changes (delivered withdrawn ordered demanded : List α) :
    x.run (delivered.map .delivered ++ withdrawn.map .withdrawn ++ ordered.map .ordered ++
      demanded.map .demanded) =
        ⟨demanded + (x.demands - withdrawn), ordered + (x.orders - delivered)⟩ := by
  rw [run_append, run_append, run_append, run_delivered, run_withdrawn, run_ordered, run_demanded]

/-- An event of a kind with a demand to spare leaves every order with its demand. -/
theorem backed_apply (hBacked : x.orders ≤ x.demands) (hSpare : x.Spare e) :
    (x.apply e).orders ≤ (x.apply e).demands := by
  cases e with
  | demanded a => exact hBacked.trans (Multiset.le_cons_self _ _)
  | delivered a => exact (Multiset.erase_le _ _).trans hBacked
  | withdrawn a =>
      change x.orders.count a < x.demands.count a at hSpare
      refine Multiset.le_iff_count.mpr fun b => ?_
      have hOld := Multiset.le_iff_count.mp hBacked b
      change x.orders.count b ≤ (x.demands.erase a).count b
      by_cases hSame : b = a
      · subst hSame
        rw [Multiset.count_erase_self]
        omega
      · rwa [Multiset.count_erase_of_ne hSame]
  | ordered a =>
      change x.orders.count a < x.demands.count a at hSpare
      refine Multiset.le_iff_count.mpr fun b => ?_
      have hOld := Multiset.le_iff_count.mp hBacked b
      change (a ::ₘ x.orders).count b ≤ x.demands.count b
      by_cases hSame : b = a
      · subst hSame
        rw [Multiset.count_cons_self]
        omega
      · rwa [Multiset.count_cons_of_ne hSame]

theorem moderate_of_spare (hBacked : x.orders ≤ x.demands) (hSpare : x.Spare e) :
    x.Moderate e := by
  cases e with
  | ordered a =>
      have hCard := Multiset.card_le_card (backed_apply hBacked hSpare)
      change (a ::ₘ x.orders).card ≤ x.demands.card at hCard
      rwa [Multiset.card_cons] at hCard
  | demanded a | withdrawn a | delivered a => trivial

theorem backed_run (hBacked : x.orders ≤ x.demands) (hSpare : x.Always Spare events) :
    (x.run events).orders ≤ (x.run events).demands := by
  induction events generalizing x with
  | nil => exact hBacked
  | cons e rest ih => exact ih (backed_apply hBacked hSpare.1) hSpare.2

theorem always_moderate (hBacked : x.orders ≤ x.demands) (hSpare : x.Always Spare events) :
    x.Always Moderate events := by
  induction events generalizing x with
  | nil => trivial
  | cons e rest ih =>
      exact ⟨moderate_of_spare hBacked hSpare.1, ih (backed_apply hBacked hSpare.1) hSpare.2⟩

end Account

/-- In a machine that keeps an account by the events of its steps, every order has its demand at
the end of every run whose events are spare ones. -/
theorem System.Reach.backed {M : System State Label} {guard : State → Label → Prop}
    (account : State → Account α) (events : State → Label → List (Event α))
    (hInit : ∀ s, M.initial s → (account s).orders ≤ (account s).demands)
    (hKept : ∀ s l s', M.Reach guard s → M.step s l = some s' →
      account s' = (account s).run (events s l))
    (hSpare : ∀ s l, guard s l → (account s).Always Account.Spare (events s l))
    {s : State} (run : M.Reach guard s) : (account s).orders ≤ (account s).demands := by
  refine run.invariant_of_reach _ hInit fun s l s' prior hBacked hGuard hStep => ?_
  rw [hKept s l s' prior hStep]
  exact Account.backed_run hBacked (hSpare s l hGuard)

end Machine
