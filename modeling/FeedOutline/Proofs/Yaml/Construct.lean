import FeedOutline.Proofs.Data.Mapping
import FeedOutline.Proofs.Except
import FeedOutline.Yaml.Construct

/-!
No object that the nodes of a graph stand for is a mapping with a key twice. The steps that make them keep
this, whatever else they do to the nodes.
-/
namespace FeedOutline.Yaml

open Data (Scalar)
open Text (AnyText)

def Object.Proper : Object → Prop
  | .map entries => (entries.map (·.1)).Nodup
  | _ => True

def Building.Proper (s : Building) : Prop :=
  ∀ (n : Nat) (o : Object), s.objects[n]? = some (some o) → o.Proper

namespace Build

/-- An action keeps objects proper, and its result has a property. -/
def Keeps {α : Type} (x : Build α) (Q : α → Prop) : Prop :=
  ∀ s a s', s.Proper → x.run s = .ok (a, s') → s'.Proper ∧ Q a

variable {α β : Type} {x : Build α} {Q : α → Prop} {R : β → Prop}

theorem keeps_pure {a : α} (h : Q a) : Keeps (pure a) Q := by
  intro s a' s' hs hrun
  cases hrun
  exact ⟨hs, h⟩

theorem keeps_bind {f : α → Build β} (hx : Keeps x Q) (hf : ∀ a, Q a → Keeps (f a) R) : Keeps (x >>= f) R := by
  intro s b s' hs hrun
  rw [StateT.run_bind] at hrun
  obtain ⟨⟨a, m⟩, hrunx, hrunf⟩ := bind_eq_ok.1 hrun
  obtain ⟨hm, ha⟩ := hx s a m hs hrunx
  exact hf a ha m b s' hm hrunf

theorem keeps_get : Keeps (get : Build Building) fun _ => True := by
  intro s a s' hs hrun
  cases hrun
  exact ⟨hs, trivial⟩

theorem keeps_modify {f : Building → Building} (hf : ∀ s : Building, s.Proper → (f s).Proper) :
    Keeps (modify f) fun _ => True := by
  intro s a s' hs hrun
  cases hrun
  exact ⟨hf s hs, trivial⟩

theorem keeps_refuse {f : Fault} : Keeps (refuse f : Build α) Q := by
  intro s a s' hs hrun
  cases hrun

theorem keeps_lift {x : Except Fault α} : Keeps (liftM x : Build α) fun _ => True := by
  intro s a s' hs hrun
  cases x with
  | error f => cases hrun
  | ok a =>
    cases hrun
    exact ⟨hs, trivial⟩

theorem keeps_foldlM {γ : Type} {step : β → γ → Build β} (hstep : ∀ b c, R b → Keeps (step b c) R) :
    ∀ (cs : List γ) (b : β), R b → Keeps (cs.foldlM step b) R
  | [], b, hb => keeps_pure hb
  | c :: cs, b, hb => by
    rw [List.foldlM_cons]
    exact keeps_bind (hstep b c hb) fun b' hb' => keeps_foldlM hstep cs b' hb'

theorem keeps_mapM {γ : Type} {step : γ → Build β} (hstep : ∀ c, Keeps (step c) fun _ => True) :
    ∀ cs : List γ, Keeps (cs.mapM step) fun _ => True
  | [] => keeps_pure trivial
  | c :: cs => by
    rw [List.mapM_cons]
    exact keeps_bind (hstep c) fun _ _ => keeps_bind (keeps_mapM hstep cs) fun _ _ => keeps_pure trivial

theorem keeps_forM {γ : Type} {step : γ → Build PUnit} (hstep : ∀ c, Keeps (step c) fun _ => True) :
    ∀ cs : List γ, Keeps (cs.forM step) fun _ => True
  | [] => keeps_pure trivial
  | c :: cs => by
    rw [List.forM]
    exact keeps_bind (hstep c) fun _ _ => keeps_forM hstep cs

theorem keeps_node (n : Nat) : Keeps (node n) fun _ => True :=
  keeps_bind keeps_get fun _ _ => keeps_pure trivial

theorem keeps_setNode (n : Nat) (value : Node) : Keeps (setNode n value) fun _ => True :=
  keeps_modify fun _ hs => hs

theorem keeps_object? (n : Nat) : Keeps (object? n) fun _ => True :=
  keeps_bind keeps_get fun _ _ => keeps_pure trivial

theorem keeps_setObject (n : Nat) {o : Object} (ho : o.Proper) : Keeps (setObject n o) fun _ => True := by
  refine keeps_modify fun s hs i o' hi => ?_
  rw [Array.getElem?_setIfInBounds] at hi
  split at hi
  · split at hi
    · cases hi
      exact ho
    · cases hi
  · exact hs i o' hi

theorem keeps_orRefuse (f : Fault) (o : Option α) : Keeps (orRefuse f o) fun _ => True := by
  cases o with
  | none => exact keeps_refuse
  | some a => exact keeps_pure trivial

end Build

open Build

theorem keeps_textOf (fuel n : Nat) : Keeps (textOf fuel n) fun _ => True := by
  induction fuel generalizing n with
  | zero => exact keeps_refuse
  | succ fuel ih =>
    refine keeps_bind (keeps_node n) fun node _ => ?_
    split
    · exact keeps_pure trivial
    · exact keeps_refuse
    · refine keeps_bind keeps_get fun s _ => ?_
      dsimp only
      split
      · exact ih _
      · exact keeps_refuse

theorem keeps_timeOf (text : AnyText) : Keeps (timeOf text) fun _ => True := by
  unfold timeOf
  dsimp only
  split
  · exact keeps_refuse
  · split
    · split <;> exact keeps_pure trivial
    · exact keeps_refuse

theorem keeps_scalarOf (tag : Tag) (n : Nat) : Keeps (scalarOf tag n) fun _ => True := by
  refine keeps_bind keeps_get fun s _ => keeps_bind (keeps_textOf _ n) fun text _ => ?_
  split
  · exact keeps_pure trivial
  · refine keeps_bind (keeps_node n) fun node _ => ?_
    split
    · exact keeps_timeOf _
    · exact keeps_refuse
  · split <;> exact keeps_lift

theorem keeps_meet (n : Nat) : Keeps (meet n) fun _ => True := by
  refine keeps_bind (keeps_object? n) fun o _ => ?_
  split
  · refine keeps_bind (keeps_node n) fun node _ => ?_
    have hwait : Keeps (do setObject n .waiting; modify fun s => { s with queue := s.queue ++ [n] }) fun _ => True :=
      keeps_bind (keeps_setObject n trivial) fun _ _ => keeps_modify fun _ hs => hs
    have hscalar : ∀ tag, Keeps (do setObject n (.scalar (← scalarOf tag n))) fun _ => True := fun tag =>
      keeps_bind (keeps_scalarOf tag n) fun _ _ => keeps_setObject n trivial
    split
    iterate 3 exact keeps_refuse
    iterate 4 exact hwait
    exact hscalar _
  · exact keeps_pure trivial

theorem keeps_tagOf (n : Nat) : Keeps (tagOf n) fun _ => True :=
  keeps_bind (keeps_node n) fun _ _ => keeps_pure trivial

theorem keeps_entriesOf? (n : Nat) : Keeps (entriesOf? n) fun _ => True := by
  refine keeps_bind (keeps_node n) fun node _ => ?_
  split <;> exact keeps_pure trivial

theorem keeps_plainKey (n : Nat) : Keeps (plainKey n) fun _ => True := by
  refine keeps_bind (keeps_node n) fun key _ => ?_
  split
  · exact keeps_setNode n _
  · exact keeps_pure trivial

theorem keeps_merging (fuel : Nat) : ∀ n,
    Keeps (mergeInto fuel n) (fun _ => True) ∧ Keeps (mergedFrom fuel n) fun _ => True := by
  induction fuel with
  | zero => exact fun n => ⟨keeps_pure trivial, keeps_pure trivial⟩
  | succ fuel ih =>
    intro n
    have hentries : ∀ n, Keeps (do return (← entriesOf? n).getD []) fun _ => True := fun n =>
      keeps_bind (keeps_entriesOf? n) fun _ _ => keeps_pure trivial
    have hmerge : ∀ n, Keeps (do mergeInto fuel n; return (← entriesOf? n).getD []) fun _ => True := fun n =>
      keeps_bind (ih n).1 fun _ _ => hentries n
    have hset : ∀ own, Keeps (do setNode n ⟨← tagOf n, .map own⟩) fun _ => True := fun own =>
      keeps_bind (keeps_tagOf n) fun _ _ => keeps_setNode n _
    constructor
    · unfold mergeInto
      refine keeps_bind (keeps_entriesOf? n) fun entries _ => ?_
      split
      · exact keeps_pure trivial
      · refine keeps_bind (keeps_mapM (fun e => ?_) _) fun tagged _ => ?_
        · exact keeps_bind (keeps_tagOf _) fun _ _ => keeps_pure trivial
        · refine keeps_bind (keeps_tagOf n) fun _ _ => keeps_bind (keeps_setNode n _) fun _ _ => ?_
          refine keeps_bind (keeps_forM (fun e => keeps_plainKey _) _) fun _ _ => ?_
          refine keeps_bind (keeps_mapM (fun e => (ih e).2) _) fun merged _ => ?_
          exact keeps_bind (keeps_entriesOf? n) fun _ _ => hset _
    · unfold mergedFrom
      refine keeps_bind (keeps_node n) fun node _ => ?_
      split
      · exact hmerge n
      · refine keeps_bind (keeps_mapM (fun item => ?_) _) fun parts _ => keeps_pure trivial
        refine keeps_bind (keeps_entriesOf? item) fun entries _ => ?_
        split
        · exact hmerge item
        · exact keeps_refuse
      · exact keeps_refuse

theorem keeps_readEntries (n : Nat) : Keeps (readEntries n) fun entries => (entries.map (·.1)).Nodup := by
  refine keeps_bind keeps_get fun s _ => keeps_bind (keeps_merging _ n).1 fun _ _ => ?_
  refine keeps_bind (keeps_entriesOf? n) fun entries? _ => keeps_bind (keeps_orRefuse _ _) fun entries _ => ?_
  refine keeps_foldlM (fun m e hm => ?_) entries [] List.nodup_nil
  refine keeps_bind (keeps_meet _) fun _ _ => keeps_bind (keeps_object? _) fun o _ => ?_
  split
  · exact keeps_bind (keeps_meet _) fun _ _ => keeps_pure (Scalar.nodup_keys_setIn hm)
  · exact keeps_refuse

theorem keeps_itemsOf (n : Nat) : Keeps (itemsOf n) fun _ => True := by
  refine keeps_bind (keeps_node n) fun node _ => ?_
  split
  · exact keeps_pure trivial
  · exact keeps_refuse

theorem keeps_readPair (n : Nat) : Keeps (readPair n) fun _ => True := by
  refine keeps_bind (keeps_entriesOf? n) fun entries _ => ?_
  split
  · exact keeps_bind (keeps_meet _) fun _ _ => keeps_bind (keeps_meet _) fun _ _ => keeps_pure trivial
  · exact keeps_refuse

theorem keeps_complete (n : Nat) : Keeps (complete n) fun _ => True := by
  refine keeps_bind (keeps_node n) fun node _ => ?_
  split
  · refine keeps_bind (keeps_itemsOf n) fun items _ => ?_
    exact keeps_bind (keeps_forM keeps_meet items) fun _ _ => keeps_setObject n trivial
  · exact keeps_bind (keeps_readEntries n) fun entries _ => keeps_setObject n trivial
  · refine keeps_bind (keeps_itemsOf n) fun items _ => ?_
    exact keeps_bind (keeps_mapM keeps_readPair items) fun _ _ => keeps_setObject n trivial
  · exact keeps_bind (keeps_readEntries n) fun entries hentries => keeps_setObject n hentries

theorem keeps_completeAll (fuel : Nat) : Keeps (completeAll fuel) fun _ => True := by
  induction fuel with
  | zero => exact keeps_pure trivial
  | succ fuel ih =>
    refine keeps_bind keeps_get fun s _ => ?_
    split
    · exact keeps_pure trivial
    · refine keeps_bind (keeps_modify fun _ hs => hs) fun _ _ => ?_
      exact keeps_bind (keeps_complete _) fun _ _ => ih

theorem proper_of_objectsOf {g : Graph} {objects : Array (Option Object)} (h : objectsOf g = .ok objects) {n : Nat}
    {o : Object} (ho : objects[n]? = some (some o)) : o.Proper := by
  obtain ⟨⟨u, s⟩, hrun, hs⟩ := bind_eq_ok.1 h
  cases hs
  have hstart : Building.Proper ⟨g.nodes, Array.replicate g.nodes.size none, []⟩ := by
    intro n o hn
    rw [Array.getElem?_replicate] at hn
    split at hn <;> cases hn
  have hkeeps : Keeps (do meet g.root; completeAll (g.nodes.size + 1) : Build Unit) fun _ => True :=
    keeps_bind (keeps_meet _) fun _ _ => keeps_completeAll _
  exact (hkeeps _ _ _ hstart hrun).1 n o ho

end FeedOutline.Yaml
