import FeedOutline.Proofs.Outline.Forest

/-!
Paths down a tree, from one heading to another that stands at or below it.
-/
namespace FeedOutline.Outline

/-- The path leads from one heading down to another; both belong to it, and each heading on it stands
directly below the one before. -/
inductive Leads : Node → List Node → Node → Prop
  | here (n) : Leads n [n] n
  | down {n c path h} : c ∈ n.children → Leads c path h → Leads n (n :: path) h

namespace Leads

variable {r c h : Node} {path : List Node}

theorem cons_iff {top : Node} :
    Leads top (r :: path) h ↔
      r = top ∧ (path = [] ∧ h = top ∨ ∃ c ∈ top.children, Leads c path h) := by
  constructor
  · intro hp
    cases hp with
    | here => exact ⟨rfl, .inl ⟨rfl, rfl⟩⟩
    | down hc hp => exact ⟨rfl, .inr ⟨_, hc, hp⟩⟩
  · rintro ⟨rfl, ⟨rfl, rfl⟩ | ⟨c, hc, hp⟩⟩
    · exact .here _
    · exact .down hc hp

theorem ne_nil (hp : Leads r path h) : path ≠ [] := by
  cases hp <;> simp

theorem getLast?_eq (hp : Leads r path h) : path.getLast? = some h := by
  induction hp with
  | here n => rfl
  | down _ hp ih => rw [List.getLast?_cons_of_ne_nil hp.ne_nil, ih]

theorem trans {top : Node} {above : List Node} (ha : Leads top above r) (hp : Leads r path h) :
    Leads top (above.dropLast ++ path) h := by
  induction ha with
  | here n => exact hp
  | down hc ha ih =>
    rw [List.dropLast_cons_of_ne_nil ha.ne_nil, List.cons_append]
    exact .down hc (ih hp)

theorem of_append {top : Node} {before : List Node} (hp : Leads top (before ++ r :: path) h) :
    Leads top (before ++ [r]) r ∧ Leads r (r :: path) h := by
  induction before generalizing top with
  | nil =>
    obtain ⟨rfl, -⟩ := cons_iff.1 hp
    exact ⟨.here r, hp⟩
  | cons n before ih =>
    obtain ⟨rfl, ⟨hnil, -⟩ | ⟨c, hc, hp⟩⟩ := cons_iff.1 hp
    · simp at hnil
    · obtain ⟨hbefore, hafter⟩ := ih hp
      exact ⟨.down hc hbefore, hafter⟩

theorem mem_walk {top : Node} (hp : Leads top path h) : h = top ∨ h ∈ walkAll top.children := by
  induction hp with
  | here n => exact .inl rfl
  | @down n c path h hc hp ih =>
    obtain ⟨before, after, hchildren⟩ := List.append_of_mem hc
    rw [hchildren, walkAll_append, walkAll_cons]
    rcases ih with rfl | ih
    · simp
    · simp [ih]

end Leads

theorem mem_walkAll_iff {h : Node} {ns : List Node} :
    h ∈ walkAll ns ↔ ∃ top ∈ ns, ∃ path, Leads top path h := by
  induction ns using forest_induction with
  | nil => simp
  | cons n ns ihc ihs =>
    rw [walkAll_cons, List.mem_cons, List.mem_append, ihc, ihs]
    constructor
    · rintro (rfl | ⟨c, hc, path, hp⟩ | ⟨top, htop, path, hp⟩)
      · exact ⟨h, List.mem_cons_self .., _, .here h⟩
      · exact ⟨n, List.mem_cons_self .., _, .down hc hp⟩
      · exact ⟨top, List.mem_cons_of_mem _ htop, path, hp⟩
    · rintro ⟨top, htop, path, hp⟩
      rcases List.mem_cons.1 htop with rfl | htop
      · cases hp with
        | here => exact .inl rfl
        | down hc hp => exact .inr (.inl ⟨_, hc, _, hp⟩)
      · exact .inr (.inr ⟨top, htop, path, hp⟩)

theorem Leads.unique {ns : List Node} {p : Node → Prop}
    (hone : (walkAll ns).Pairwise fun a b => p a → ¬ p b) {top top' h' : Node} {path' : List Node}
    (htop : top ∈ ns) (htop' : top' ∈ ns) (hpath : Leads top path h) (hpath' : Leads top' path' h')
    (hh : p h) (hh' : p h') : path = path' ∧ h = h' := by
  induction ns using forest_induction generalizing top top' path path' with
  | nil => cases htop
  | cons n ns ihc ihs =>
    rw [walkAll_cons, List.pairwise_cons, List.pairwise_append] at hone
    obtain ⟨hfirst, hbelow, hbeside, happart⟩ := hone
    have hroot : ∀ m ∈ walkAll n.children ++ walkAll ns, p m → ¬ p n :=
      fun m hm hpm hpn => hfirst m hm hpn hpm
    have hcross : ∀ {m m' : Node} {above above' : List Node}, Leads n above m → p m →
        (∃ top ∈ ns, Leads top above' m') → ¬ p m' := by
      rintro m m' above above' hm hpm ⟨other, hother, hm'⟩
      have hmem : m' ∈ walkAll ns := mem_walkAll_iff.2 ⟨other, hother, above', hm'⟩
      rcases hm.mem_walk with rfl | hbelow
      · exact hfirst m' (List.mem_append_right _ hmem) hpm
      · exact happart m hbelow m' hmem hpm
    rcases List.mem_cons.1 htop with rfl | hns
    · rcases List.mem_cons.1 htop' with rfl | hns'
      · cases hpath with
        | here =>
          cases hpath' with
          | here => exact ⟨rfl, rfl⟩
          | down hc hpath' =>
            have hmem := mem_walkAll_iff.2 ⟨_, hc, _, hpath'⟩
            exact absurd hh (hroot _ (List.mem_append_left _ hmem) hh')
        | down hc hpath =>
          cases hpath' with
          | here =>
            have hmem := mem_walkAll_iff.2 ⟨_, hc, _, hpath⟩
            exact absurd hh' (hroot _ (List.mem_append_left _ hmem) hh)
          | down hc' hpath' =>
            obtain ⟨rfl, rfl⟩ := ihc hbelow hc hc' hpath hpath'
            exact ⟨rfl, rfl⟩
      · exact absurd hh' (hcross hpath hh ⟨top', hns', hpath'⟩)
    · rcases List.mem_cons.1 htop' with rfl | hns'
      · exact absurd hh (hcross hpath' hh' ⟨top, hns, hpath⟩)
      · exact ihs hbeside hns hns' hpath hpath'

theorem Nested.of_mem_walkAll {ns : List Node} (hn : Nested ns) {r : Node} (hr : r ∈ walkAll ns) :
    Nested [r] := by
  induction ns using forest_induction with
  | nil => simp at hr
  | cons n ns ihc ihs =>
    obtain ⟨hdeeper, hchildren, -, hns⟩ := cons_iff.1 hn
    rw [walkAll_cons, List.mem_cons, List.mem_append] at hr
    rcases hr with rfl | hr | hr
    · exact singleton_iff.2 ⟨hdeeper, hchildren⟩
    · exact ihc hchildren hr
    · exact ihs hns hr

end FeedOutline.Outline
