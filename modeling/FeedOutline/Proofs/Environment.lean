import FeedOutline.Environment.Assignment
import FeedOutline.Proofs.Lookup

/-!
Environments that grow. A file of assignments adds variables, and those that are set keep their values.
-/
namespace FeedOutline.Environment

def Kept (env env' : Environment) : Prop :=
  ∀ name value, env.get? name = some value → env'.get? name = some value

variable {env env' env'' : Environment}

theorem get?_set (env : Environment) (name value other : String) :
    (env.set name value).get? other = if other = name then some value else env.get? other :=
  lookup_setEntry env.vars name value other

theorem Kept.refl (env : Environment) : Kept env env :=
  fun _ _ h => h

theorem Kept.trans (h : Kept env env') (h' : Kept env' env'') : Kept env env'' :=
  fun name value hget => h' name value (h name value hget)

theorem kept_set {name : String} (h : env.get? name = none) (value : String) :
    Kept env (env.set name value) := by
  intro other value' hget
  rw [get?_set, if_neg, hget]
  rintro rfl
  rw [h] at hget
  cases hget

theorem kept_extend (env : Environment) (as : Assigned) : Kept env (extend env as).env := by
  induction as generalizing env with
  | nil => exact .refl env
  | cons a as ih =>
    obtain ⟨name, _ | value⟩ := a
    · exact ih env
    · rw [extend]
      split_ifs with hset
      · exact ih env
      · rw [Option.not_isSome_iff_eq_none] at hset
        exact (kept_set hset value).trans (ih _)
      · exact .refl env

theorem kept_extendFrom (env : Environment) (text : String) : Kept env (env.extendFrom text).env :=
  kept_extend env _

end FeedOutline.Environment
