import Openstack.Gateway.RequestContext
import Openstack.Lib.Numbered

/-!
# Stack parameters

How `CreateStack` reads its `Parameters` (`crates/services/cloudformation/src/provider.rs`, lines
298-317).
-/
namespace Openstack.CloudFormation

open Gateway (RequestContext)

def parameterKey (i : Nat) : String := Numbered.indexed "Parameters.member." i ".ParameterKey"

def parameterValue (i : Nat) : String := Numbered.indexed "Parameters.member." i ".ParameterValue"

/-- Key and value of one member, unless both are absent. -/
def member (ctx : RequestContext) (i : Nat) : Option (Option String × Option String) :=
  match ctx.queryParams[parameterKey i]?, ctx.queryParams[parameterValue i]? with
  | none, none => none
  | key, value => some (key, value)

/-- A member that lacks its key or its value is passed over. -/
def insertMember (parameters : StrMap String) : Option String × Option String → StrMap String
  | (some key, some value) => parameters.insert key value
  | _ => parameters

/-- The parameters of the stack; the loop ends at the first number that the query lacks. -/
def stackParameters (ctx : RequestContext) : StrMap String :=
  (Numbered.collect (member ctx) (ctx.queryParams.size + 1) 1).foldl insertMember ∅

theorem parameterKey_ne_value (i j : Nat) : parameterKey i ≠ parameterValue j := by
  intro same
  have key : ".ParameterKey".toList.getLast? = some 'y' := by decide
  have value : ".ParameterValue".toList.getLast? = some 'e' := by decide
  have last := congrArg (fun s : String => s.toList.getLast?) same
  simp only [parameterKey, parameterValue, Numbered.indexed, String.toList_append,
    List.getLast?_append, key, value, Option.some_or] at last
  exact absurd last (by decide)

theorem stackParameters_ends (ctx : RequestContext) :
    member ctx (1 + (Numbered.collect (member ctx) (ctx.queryParams.size + 1) 1).length) = none := by
  let key (i : Nat) : String :=
    if ctx.queryParams[parameterKey i]?.isSome then parameterKey i else parameterValue i
  have distinct : ∀ i j, key i = key j → i = j := by
    intro i j same
    simp only [key] at same
    split at same <;> split at same
    · exact Numbered.indexed_inj same
    · exact absurd same (parameterKey_ne_value i j)
    · exact absurd same.symm (parameterKey_ne_value j i)
    · exact Numbered.indexed_inj same
  obtain ⟨n, enough, missing⟩ := Numbered.exists_missing ctx.queryParams distinct 1
  refine Numbered.collect_ends ?_ enough
  simp only [key] at missing
  split at missing
  · next present =>
    rw [missing] at present
    cases present
  · next absent =>
    rw [member, Option.not_isSome_iff_eq_none.mp absent, missing]

/-- Parameters are read from the query only. -/
theorem stackParameters_of_body {ctx : RequestContext} (body : ctx.queryParams = ∅) :
    stackParameters ctx = ∅ := by
  have missing : member ctx 1 = none := by simp [member, body]
  rw [stackParameters, Numbered.collect_of_missing _ missing, List.foldl_nil]

end Openstack.CloudFormation
