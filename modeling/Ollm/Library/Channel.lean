import Mathlib.Data.List.Infix

/-!
# Bounded channels

A first-in-first-out channel with one receiver and room for a number of items.
A sender waits while there is no room.  Once the receiver is gone nothing more
is accepted and what was buffered is lost.  The channel remembers what it
accepted and what it handed out.
-/

universe u

structure Channel (Item : Type u) where
  live : Bool
  buffer : List Item
  accepted : List Item
  received : List Item
  /-- As long as the receiver lives, nothing is lost, doubled or reordered. -/
  inOrder : live = true → received ++ buffer = accepted
  delivered : received <+: accepted

namespace Channel

variable {Item : Type u}

def new : Channel Item :=
  ⟨true, [], [], [], fun _ => rfl, List.prefix_rfl⟩

/-- The answer tells whether the item was accepted; there is none while the sender waits. -/
def send? (capacity : Nat) (channel : Channel Item) (item : Item) :
    Option (Bool × Channel Item) :=
  if live : channel.live = true then
    if channel.buffer.length < capacity then
      some (true, { channel with
        buffer := channel.buffer ++ [item]
        accepted := channel.accepted ++ [item]
        inOrder := fun _ => by rw [← List.append_assoc, channel.inOrder live]
        delivered := channel.delivered.trans (List.prefix_append _ _) })
    else none
  else some (false, channel)

def receive? (channel : Channel Item) : Option (Channel Item) :=
  match held : channel.buffer with
  | [] => none
  | item :: rest =>
      if live : channel.live = true then
        some { channel with
          buffer := rest
          received := channel.received ++ [item]
          inOrder := fun _ => by
            rw [List.append_assoc, List.singleton_append, ← held, channel.inOrder live]
          delivered := by
            have order := channel.inOrder live
            rw [held, List.append_cons] at order
            exact ⟨rest, order⟩ }
      else none

/-- The receiver goes away, and what it has not taken is lost. -/
def hangUp (channel : Channel Item) : Channel Item :=
  { channel with
    live := false
    buffer := []
    inOrder := fun alive => absurd alive Bool.false_ne_true }

variable {capacity : Nat} {channel after : Channel Item} {item : Item}

/-- A live receiver's channel takes the item. -/
theorem send?_accepted (sent : channel.send? capacity item = some (true, after)) :
    channel.live = true ∧ after.live = true ∧ after.accepted = channel.accepted ++ [item] ∧
      after.buffer.length = channel.buffer.length + 1 := by
  unfold send? at sent
  split_ifs at sent with live room
  · obtain ⟨-, rfl⟩ := Prod.mk.inj (Option.some.inj sent)
    exact ⟨live, live, rfl, List.length_append⟩
  · cases (Prod.mk.inj (Option.some.inj sent)).1

/-- A dead receiver's channel refuses the item and stays as it is. -/
theorem send?_refused (sent : channel.send? capacity item = some (false, after)) :
    channel.live = false ∧ after = channel := by
  unfold send? at sent
  split_ifs at sent with live room
  · cases (Prod.mk.inj (Option.some.inj sent)).1
  · exact ⟨Bool.eq_false_iff.mpr live, (Prod.mk.inj (Option.some.inj sent)).2.symm⟩

theorem send?_eq_none (waits : channel.send? capacity item = none) :
    channel.live = true ∧ capacity ≤ channel.buffer.length := by
  unfold send? at waits
  split_ifs at waits with live room
  exact ⟨live, Nat.le_of_not_lt room⟩

theorem receive?_eq_some (took : channel.receive? = some after) :
    channel.live = true ∧ after.live = true ∧ after.accepted = channel.accepted ∧
      channel.buffer.length = after.buffer.length + 1 := by
  unfold receive? at took
  split at took
  · cases took
  · rename_i item rest held
    split_ifs at took with live
    obtain rfl := Option.some.inj took
    exact ⟨live, live, rfl, congrArg List.length held⟩

theorem receive?_eq_none (waits : channel.receive? = none) (live : channel.live = true) :
    channel.buffer = [] := by
  unfold receive? at waits
  split at waits
  · rename_i held
    exact held
  · rw [dif_pos live] at waits
    cases waits

/-- What a live receiver has taken from an empty channel is all that was accepted. -/
theorem received_eq_accepted (live : channel.live = true) (drained : channel.buffer = []) :
    channel.received = channel.accepted := by
  have order := channel.inOrder live
  rwa [drained, List.append_nil] at order

end Channel
