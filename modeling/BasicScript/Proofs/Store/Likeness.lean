import BasicScript.Module.Native
import BasicScript.Proofs.Likeness
import BasicScript.Proofs.Store.Scope
import BasicScript.Proofs.Node.Relocation

/-! Stores that differ only in the places that the bodies of their functions come from. No operation
on values looks at these places, so it does the same on both and leaves them alike. -/

set_option autoImplicit false

namespace BasicScript

def Function.forget (f : Function) : Function := { f with body := Node.relocateAll .forget f.body }

namespace Store

structure Alike (s t : Store) : Prop where
  scopes : s.scopes = t.scopes
  lists : s.lists = t.lists
  dictionaries : s.dictionaries = t.dictionaries
  functions : s.functions.map Function.forget = t.functions.map Function.forget
  builtIns : s.builtIns = t.builtIns
  modules : s.modules = t.modules

namespace Alike

variable {s t : Store}

theorem refl (s : Store) : s.Alike s := ⟨rfl, rfl, rfl, rfl, rfl, rfl⟩

theorem symm (alike : s.Alike t) : t.Alike s :=
  ⟨alike.scopes.symm, alike.lists.symm, alike.dictionaries.symm, alike.functions.symm,
    alike.builtIns.symm, alike.modules.symm⟩

theorem trans {u : Store} (first : s.Alike t) (second : t.Alike u) : s.Alike u :=
  ⟨first.scopes.trans second.scopes, first.lists.trans second.lists,
    first.dictionaries.trans second.dictionaries, first.functions.trans second.functions,
    first.builtIns.trans second.builtIns, first.modules.trans second.modules⟩

variable (alike : s.Alike t)

include alike

/-! ### What is read off them -/

theorem items (h : Handle) : s.items h = t.items h := by rw [Store.items, Store.items, alike.lists]

theorem entries (h : Handle) : s.entries h = t.entries h := by
  rw [Store.entries, Store.entries, alike.dictionaries]

theorem depth : s.depth = t.depth := by
  rw [Store.depth, Store.depth, alike.lists, alike.dictionaries]

theorem scope (h : Handle) : s.scope h = t.scope h := by rw [Store.scope, Store.scope, alike.scopes]

theorem equalBy? (compare : Value → Value → Option Bool) :
    s.equalBy? compare = t.equalBy? compare := by
  funext a b
  cases a <;> cases b <;> simp only [Store.equalBy?, alike.items, alike.entries]

theorem equalWithin? (depth : Nat) : s.equalWithin? depth = t.equalWithin? depth := by
  induction depth with
  | zero => exact alike.equalBy? _
  | succ depth ih => rw [Store.equalWithin?, Store.equalWithin?, ih, alike.equalBy?]

theorem equal : s.equal = t.equal := by
  funext a b
  rw [Store.equal, Store.equal, alike.depth, alike.equalWithin?]

theorem function (h : Handle) : (s.functions[h]?.getD default).forget =
    (t.functions[h]?.getD default).forget := by
  have same : s.functions[h]?.map Function.forget = t.functions[h]?.map Function.forget := by
    rw [← Array.getElem?_map, alike.functions, Array.getElem?_map]
  cases one : s.functions[h]? with
  | none =>
    cases other : t.functions[h]? with
    | none => rfl
    | some _ => rw [one, other] at same; cases same
  | some _ =>
    cases other : t.functions[h]? with
    | none => rw [one, other] at same; cases same
    | some _ => rw [one, other] at same; exact Option.some.inj same

theorem functionName (h : Handle) : s.functionName h = t.functionName h := by
  have same := congrArg Function.name (alike.function h)
  rw [Store.functionName, Store.functionName, Function.displayName, Function.displayName]
  exact congrArg (Option.getD · _) same

theorem textWithin (depth : Nat) : s.textWithin depth = t.textWithin depth := by
  have builtIn (h : Handle) : s.builtInName h = t.builtInName h := by
    rw [Store.builtInName, Store.builtInName, alike.builtIns]
  have module (h : Handle) : s.moduleName h = t.moduleName h := by
    rw [Store.moduleName, Store.moduleName, alike.modules]
  -- on the depth: what stands in a container is shown one level below it
  induction depth with
  | zero =>
    funext a
    cases a <;> simp only [Store.textWithin, alike.functionName, builtIn, module]
  | succ depth ih =>
    funext a
    cases a <;>
      simp only [Store.textWithin, alike.items, alike.entries, alike.functionName, builtIn, module, ih]

theorem text : s.text = t.text := by
  funext v
  rw [Store.text, Store.text, alike.depth, alike.textWithin]

theorem echo (v : Value) : s.echo v = t.echo v := by
  cases v <;> simp only [Store.echo, alike.text]

theorem insert (found : Entries) (key value : Value) :
    s.insert found key value = t.insert found key value := by
  simp only [Store.insert, Store.position?, alike.equal]

theorem declares (h : Handle) (name : String) : s.declares h name = t.declares h name := by
  rw [Store.declares, Store.declares, alike.scope]

theorem owner? (h : Handle) (name : String) : s.owner? h name = t.owner? h name := by
  fun_induction s.owner? h name with
  | case1 h declared =>
    rw [alike.declares] at declared
    rw [Store.owner?, if_pos declared]
  | case2 h declared above =>
    rw [alike.declares] at declared
    rw [alike.scope] at above
    rw [Store.owner?, if_neg declared, above]
  | case3 h declared parent above below ih =>
    rw [alike.declares] at declared
    rw [alike.scope] at above
    rw [ih, Store.owner?.eq_def t h, if_neg declared, above]
    exact (if_pos below).symm
  | case4 h declared parent above below =>
    rw [alike.declares] at declared
    rw [alike.scope] at above
    rw [Store.owner?.eq_def t h, if_neg declared, above]
    exact (if_neg below).symm

theorem lookup (h : Handle) : s.lookup h = t.lookup h := by
  funext name
  simp only [Store.lookup, Store.slot?_eq, alike.owner?, alike.scope]

theorem length? (v : Value) : s.length? v = t.length? v := by
  cases v <;> simp only [Store.length?, alike.items, alike.entries]

theorem truth (v : Value) : s.truth v = t.truth v := by
  cases v <;> simp only [Store.truth, alike.items, alike.entries]

theorem unary (operator : UnaryOperator) (v : Value) : s.unary operator v = t.unary operator v := by
  cases operator <;> simp only [Store.unary, alike.truth]

theorem getItem (base index : Value) : s.getItem base index = t.getItem base index := by
  cases base <;> simp only [Store.getItem, Store.valueAt?, alike.items, alike.entries, alike.equal,
    alike.echo]

theorem getFromLast (receiver index : Value) :
    BuiltIn.getFromLast s receiver index = BuiltIn.getFromLast t receiver index := by
  simp only [BuiltIn.getFromLast, alike.length?, alike.getItem]

/-! ### What is done to them -/

theorem setScope (h : Handle) (update : Scope → Scope) :
    (s.setScope h update).Alike (t.setScope h update) :=
  { alike with scopes := congrArg (·.modify h update) alike.scopes }

theorem setItems (h : Handle) (update : Array Value → Array Value) :
    (s.setItems h update).Alike (t.setItems h update) :=
  { alike with lists := congrArg (·.modify h update) alike.lists }

theorem setEntries (h : Handle) (update : Entries → Entries) :
    (s.setEntries h update).Alike (t.setEntries h update) :=
  { alike with dictionaries := congrArg (·.modify h update) alike.dictionaries }

theorem addScope (parent : Option Handle) :
    (s.addScope parent).1 = (t.addScope parent).1 ∧ (s.addScope parent).2.Alike (t.addScope parent).2 :=
  ⟨congrArg Array.size alike.scopes,
    { alike with scopes := by simp only [Store.addScope, alike.scopes] }⟩

theorem addList (items : Array Value) :
    (s.addList items).1 = (t.addList items).1 ∧ (s.addList items).2.Alike (t.addList items).2 :=
  ⟨by simp only [Store.addList, alike.lists],
    { alike with lists := by simp only [Store.addList, alike.lists] }⟩

theorem addDictionary (entries : Entries) :
    (s.addDictionary entries).1 = (t.addDictionary entries).1 ∧
      (s.addDictionary entries).2.Alike (t.addDictionary entries).2 :=
  ⟨by simp only [Store.addDictionary, alike.dictionaries],
    { alike with dictionaries := by simp only [Store.addDictionary, alike.dictionaries] }⟩

theorem addFunction {f g : Function} (same : f.forget = g.forget) :
    (s.addFunction f).1 = (t.addFunction g).1 ∧ (s.addFunction f).2.Alike (t.addFunction g).2 := by
  have size := congrArg Array.size alike.functions
  rw [Array.size_map, Array.size_map] at size
  refine ⟨congrArg Value.function size, { alike with functions := ?_ }⟩
  simp only [Store.addFunction, Array.map_push, alike.functions, same]

theorem addBuiltIn (b : BuiltIn) :
    (s.addBuiltIn b).1 = (t.addBuiltIn b).1 ∧ (s.addBuiltIn b).2.Alike (t.addBuiltIn b).2 :=
  ⟨by simp only [Store.addBuiltIn, alike.builtIns],
    { alike with builtIns := by simp only [Store.addBuiltIn, alike.builtIns] }⟩

theorem addModule (m : Exports) :
    (s.addModule m).1 = (t.addModule m).1 ∧ (s.addModule m).2.Alike (t.addModule m).2 :=
  ⟨by simp only [Store.addModule, alike.modules],
    { alike with modules := by simp only [Store.addModule, alike.modules] }⟩

end Alike

end Store

abbrev Act.Blind {α : Type} (act : Act α) : Prop := Same Store.Alike Eq act act

namespace Act.Blind

variable {α : Type}

theorem lift (result : Except Fault α) : (Act.lift result).Blind := by
  cases result with
  | ok a => exact .pure a
  | error fault => exact .throw rfl

theorem read {view : Store → α} (same : ∀ s t, s.Alike t → view s = view t) :
    (Act.read view).Blind := by
  intro s t alike
  unfold Act.read
  rw [same s t alike]
  exact .value alike

theorem readExcept {view : Store → Except Fault α} (same : ∀ s t, s.Alike t → view s = view t) :
    (Act.readExcept view).Blind := by
  intro s t alike
  unfold Act.readExcept
  rw [same s t alike]
  exact lift _ alike

theorem change {update : Store → Store} (same : ∀ s t, s.Alike t → (update s).Alike (update t)) :
    (modify update : Act PUnit).Blind :=
  .modifyGet fun s t alike => ⟨rfl, same s t alike⟩

theorem newList (items : Array Value) : (modifyGet (·.addList items) : Act Value).Blind :=
  .modifyGet fun _ _ alike => alike.addList items

theorem newBuiltIn (b : BuiltIn) : (modifyGet (·.addBuiltIn b) : Act Value).Blind :=
  .modifyGet fun _ _ alike => alike.addBuiltIn b

theorem add (a b : Value) : (Store.add a b).Blind := by
  unfold Store.add
  split
  · exact .pure _
  · exact .bind (read fun _ _ alike => by rw [alike.items, alike.items]) newList
  · exact lift _

theorem binary (operator : BinaryOperator) (a b : Value) : (Store.binary operator a b).Blind := by
  cases operator with
  | add => exact add a b
  | equal | notEqual => exact read fun _ _ alike => by rw [alike.equal]
  | subtract | multiply | divide | power | modulo | greater | less | greaterEqual | lessEqual =>
    exact lift _

theorem setItem (base index value : Value) : (Store.setItem base index value).Blind := by
  cases base with
  | list h =>
    refine .bind (read fun _ _ alike => by rw [alike.items]) fun length => .bind (lift _) fun i => ?_
    exact change fun _ _ alike => alike.setItems h _
  | dictionary h =>
    refine .bind (read fun _ _ alike => by simp only [Store.position?, alike.entries, alike.equal])
      fun position => ?_
    exact change fun _ _ alike => alike.setEntries h _
  | string _ => exact .throw rfl
  | number _ | boolean _ | null | function _ | builtIn _ | module _ => exact .throw rfl

theorem member (receiver : Value) (name : String) : (Store.attribute receiver name).Blind := by
  unfold Store.attribute
  split
  · refine .bind (read fun _ _ alike => by rw [alike.modules]) fun found => ?_
    cases found with
    | none => exact .throw rfl
    | some v => exact .pure v
  · split
    · exact newBuiltIn _
    · exact .throw rfl

theorem declareSlot (h : Handle) (slot : Slot) : (Store.declareSlot h slot).Blind := by
  intro s t alike
  unfold Store.declareSlot
  rw [alike.declares]
  split
  · exact .stop rfl alike
  · exact .value (alike.setScope h _)

theorem declare (h : Handle) (name : String) (value : Value) (constant : Bool) :
    (Store.declare h name value constant).Blind := declareSlot h _

theorem assign (h : Handle) (name : String) (value : Value) :
    (Store.assign h name value).Blind := by
  intro s t alike
  rw [Store.assign_eq, Store.assign_eq, alike.owner?]
  split
  · exact .stop rfl alike
  · unfold Store.assignIn
    rw [alike.scope]
    split
    · exact .stop rfl alike
    · exact .value (alike.setScope _ _)

mutual

theorem data (row : String) : ∀ v : NativeValue, (v.data row).Blind
  | .number _ | .text _ | .boolean _ | .null => .pure _
  | .list items => by
    rw [NativeValue.data]
    exact .bind (dataItems row items #[]) newList
  | .map entries => by
    rw [NativeValue.data]
    exact .bind (dataEntries row entries #[]) fun found =>
      .modifyGet fun _ _ alike => alike.addDictionary found
  | .function _ => .throw rfl

theorem dataItems (row : String) : ∀ (items : List NativeValue) (found : Array Value),
    (NativeValue.dataItems row items found).Blind
  | [], found => .pure found
  | item :: rest, found => by
    rw [NativeValue.dataItems]
    exact .bind (data row item) fun value => dataItems row rest (found.push value)

theorem dataEntries (row : String) : ∀ (entries : List (NativeValue × NativeValue)) (found : Entries),
    (NativeValue.dataEntries row entries found).Blind
  | [], found => .pure found
  | (key, value) :: rest, found => by
    rw [NativeValue.dataEntries]
    refine .bind (data row key) fun key => .bind (data row value) fun value => ?_
    exact .bind (read fun _ _ alike => alike.insert found key value) fun found =>
      dataEntries row rest found

end

theorem exports (m : NativeModule) : m.exports.Blind := by
  unfold NativeModule.exports
  induction m.rows with
  | nil => exact .pure []
  | cons row rest ih =>
    rw [NativeModule.exportsFrom]
    refine .bind ?_ fun value => .bind ih fun exports => .pure _
    unfold NativeModule.convert
    split
    · exact newBuiltIn _
    · exact data _ _

end Act.Blind

structure World.Alike (w v : World) : Prop where
  store : w.store.Alike v.store
  console : w.console = v.console

abbrev Effect.Blind {α : Type} (effect : Effect α) : Prop := Same World.Alike Eq effect effect

namespace Effect.Blind

variable {α : Type}

theorem ofAct {act : Act α} (blind : act.Blind) : (Effect.ofAct act).Blind := by
  intro w v alike
  have ends := blind alike.store
  unfold Effect.ofAct
  dsimp only
  generalize act w.store = one, act v.store = other at ends ⊢
  cases ends with
  | value same => exact .value ⟨same, alike.console⟩
  | stop both same => exact .stop both ⟨same, alike.console⟩

theorem read {view : Store → α} (same : ∀ s t, s.Alike t → view s = view t) :
    (Effect.read view).Blind := ofAct (.read same)

theorem lift (result : Except Fault α) : (Effect.lift result).Blind := ofAct (.lift result)

theorem alloc {add : Store → Value × Store} (same : ∀ s t, s.Alike t →
    (add s).1 = (add t).1 ∧ (add s).2.Alike (add t).2) : (Effect.alloc add).Blind :=
  ofAct (.modifyGet same)

theorem write (text : String) : (Effect.write text).Blind := by
  intro w v alike
  unfold Effect.write
  dsimp only
  rw [alike.console]
  split
  · exact .value ⟨alike.store, rfl⟩
  · exact .stop rfl ⟨alike.store, rfl⟩

theorem writeLine (text : String) : (Effect.writeLine text).Blind := .bind (write text) fun _ => write _

theorem readLine : Effect.readLine.Blind := by
  intro w v alike
  unfold Effect.readLine
  dsimp only
  rw [alike.console]
  split
  · exact .value ⟨alike.store, rfl⟩
  · exact .stop rfl ⟨alike.store, rfl⟩

theorem joined (args : List Value) : (BuiltIn.joined args).Blind :=
  .bind (read fun _ _ alike => by rw [alike.text]) fun _ => .pure _

theorem number (result : Except Fault Number) : (Value.number <$> Effect.lift result).Blind := by
  rw [map_eq_pure_bind]
  exact .bind (lift result) fun _ => .pure _

theorem terminal (function : TerminalFunction) (args : List Value) :
    (BuiltIn.terminal function args).Blind := by
  cases function with
  | print => exact .bind (joined args) fun text => .bind (write text) fun _ => .pure _
  | printLine => exact .bind (joined args) fun text => .bind (writeLine text) fun _ => .pure _
  | input =>
    have line : Effect.Blind (do return Value.string (withoutBreaks (← Effect.readLine))) :=
      .bind readLine fun _ => .pure _
    cases args with
    | nil => exact line
    | cons prompt _ =>
      exact .bind (read fun _ _ alike => by rw [alike.text]) fun text =>
        .bind (write text) fun _ => line
  | clear => exact .bind (write _) fun _ => .pure _

theorem perform (name : String) (action : Action) (args : List Value) (trace : List String)
    (scope : Handle) : (BuiltIn.perform name action args trace scope).Blind := by
  cases action with
  | print => exact .bind (joined args) fun text => .bind (writeLine text) fun _ => .pure _
  | text => exact .bind (read fun _ _ alike => by rw [alike.text]) fun _ => .pure _
  | number => exact number _
  | length =>
    refine .bind (read fun _ _ alike => alike.length? _) fun found => ?_
    cases found with
    | none => exact .throw rfl
    | some n => exact .pure _
  | typeName | double _ | floor _ | ceil _ => exact .pure _
  | half _ | sqrt _ | math _ => exact number _
  | get receiver => exact ofAct (.readExcept fun _ _ alike => alike.getItem receiver _)
  | getFromLast receiver => exact ofAct (.readExcept fun _ _ alike => alike.getFromLast receiver _)
  | size receiver => exact .bind (read fun _ _ alike => by rw [alike.length?]) fun _ => .pure _
  | append list =>
    exact .bind (ofAct (Act.Blind.change fun _ _ alike => alike.setItems list _)) fun _ => .pure _
  | pop list =>
    refine ofAct (.bind (Act.Blind.read fun _ _ alike => by rw [alike.items]) fun last => ?_)
    cases last with
    | none => exact .throw rfl
    | some v => exact .bind (Act.Blind.change fun _ _ alike => alike.setItems list _) fun _ => .pure v
  | keys dictionary | values dictionary =>
    exact alloc fun _ _ alike => by
      rw [alike.entries]
      exact alike.addList _
  | terminal function => exact terminal function args
  | host function =>
    exact ofAct (.readExcept fun _ _ alike => by rw [alike.text, alike.lookup])

theorem call (b : BuiltIn) (args : List Value) (trace : List String) (scope : Handle) :
    (b.call args trace scope).Blind := by
  unfold BuiltIn.call
  cases b.arity with
  | none => exact perform b.name b.action args trace scope
  | some arity => exact .bind (lift _) fun _ => perform b.name b.action args trace scope

end Effect.Blind

end BasicScript
