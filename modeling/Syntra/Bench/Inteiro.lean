import Syntra.Bench.Remontagem

/-!
# Whole files

`tarefa_arquivo_inteiro` counts files by their hashes, with a dictionary and passes over the
hashes.  It finds what the scan finds whose chunks are the files.
-/

set_option autoImplicit false

namespace Syntra

namespace Bench

open Interned Tiling

variable (F : Ferramentas)

/-- The dictionaries, the keys in the order in which they came, and the hash of each file. -/
structure Inteiro where
  dic : Bytes → Option (Versao × Nat × Nat)
  c3PorHash : Bytes → Option Nat
  ordem : List Bytes
  todos : Versao → List Bytes
  codecOk : Bool

def Inteiro.inicial : Inteiro :=
  { dic := fun _ => none
    c3PorHash := fun _ => none
    ordem := []
    todos := fun _ => []
    codecOk := true }

def Inteiro.arquivo (ver : Versao) (estado : Inteiro) (i : Nat) (d : Bytes) : Inteiro :=
  let h := F.blake2b d
  let todos := Function.update estado.todos ver (estado.todos ver ++ [h])
  match estado.dic h with
  | some _ => { estado with todos }
  | none =>
    let c := F.comprimir 3 d
    { dic := Function.update estado.dic h (some (ver, i, d.length))
      c3PorHash := Function.update estado.c3PorHash h (some c.length)
      ordem := estado.ordem ++ [h]
      todos
      codecOk := estado.codecOk && F.descomprimir c == d }

def Inteiro.versao (ver : Versao) : Nat → List Arquivo → Inteiro → Inteiro
  | _, [], estado => estado
  | i, f :: fs, estado => Inteiro.versao ver (i + 1) fs (estado.arquivo F ver i f.dados)

def lerInteiros (fontes : Fontes) : Inteiro :=
  (Inteiro.inicial.versao F .v1 0 (fontes .v1)).versao F .v2 0 (fontes .v2)

/-- The loop over `ja_visto`: what was seen before counts, and is seen from then on. -/
def somaVistos : List Bytes → List (Bytes × Nat) → Nat
  | _, [] => 0
  | jaVisto, item :: resto =>
    (if jaVisto.contains item.1 then item.2 else 0) + somaVistos (jaVisto ++ [item.1]) resto

/-- The counts of the report; the ratios are computed of these. -/
structure RelatorioInteiro where
  nUnicos : Nat
  bytesUnicos : Nat
  bytesV2JaEmV1 : Nat
  bytesV2Duplicados : Nat
  armazenadoZ3ComDedup : Nat
  codecOk : Bool

def Inteiro.relatorio (fontes : Fontes) (estado : Inteiro) : RelatorioInteiro :=
  let segundos := (estado.todos .v2).zip ((fontes .v2).map fun f => f.dados.length)
  { nUnicos := estado.ordem.length
    bytesUnicos := (estado.ordem.map fun h => ((estado.dic h).map fun v => v.2.2).getD 0).sum
    bytesV2JaEmV1 :=
      ((segundos.filter fun item => (estado.todos .v1).contains item.1).map Prod.snd).sum
    bytesV2Duplicados := somaVistos (estado.todos .v1) segundos
    armazenadoZ3ComDedup := (estado.ordem.map fun h => (estado.c3PorHash h).getD 0).sum
    codecOk := estado.codecOk }

/-! ## File by file -/

/-- The scan whose chunks are the files. -/
def Ferramentas.inteira : Ferramentas :=
  { F with
    cortar := fun dados => some [(0, dados.length)]
    amostra := 0 }

structure Concordam (inteiro : Inteiro) (estado : Varredura) : Prop where
  ordem : Indexes estado.dic inteiro.ordem
  tamanho : inteiro.ordem.length = estado.unicos.length
  dic : ∀ h, inteiro.dic h =
    (estado.dic h).bind fun u => (estado.unicos[u]?).map fun x => (x.ver, x.obj, x.tam)
  c3 : ∀ h, inteiro.c3PorHash h = (estado.dic h).bind fun u => (estado.unicos[u]?).map Unico.c3
  codecOk : inteiro.codecOk = estado.codecOk

variable {F} {inteiro : Inteiro} {estado : Varredura} {ver : Versao}

theorem concordam_inicial : Concordam Inteiro.inicial Varredura.inicial :=
  ⟨Indexes.nil, rfl, fun _ => rfl, fun _ => rfl, rfl⟩

theorem bytes_inteira (i : Nat) (dados : Bytes) :
    (ocorrencia i dados (0, dados.length)).bytes = dados := by
  show (dados.drop 0).take dados.length = dados
  rw [List.drop_zero, List.take_length]

theorem chave_inteira (i : Nat) (dados : Bytes) :
    (ocorrencia i dados (0, dados.length)).chave F.inteira = F.blake2b dados := by
  rw [Ocorrencia.chave, bytes_inteira]
  rfl

theorem busca_novo {β : Type} (indexes : Indexes estado.dic inteiro.ordem)
    (tamanho : inteiro.ordem.length = estado.unicos.length) (g : Unico → β) (x : Unico)
    {h : Bytes} (novo : estado.dic h = none) (h' : Bytes) :
    ((Function.update estado.dic h (some estado.unicos.length)) h').bind (fun u =>
        ((estado.unicos ++ [x])[u]?).map g) =
      Function.update (fun h' => (estado.dic h').bind fun u => (estado.unicos[u]?).map g) h
        (some (g x)) h' := by
  rcases eq_or_ne h' h with rfl | outro
  · rw [Function.update_self, Function.update_self, Option.bind_some, List.getElem?_concat_length,
      Option.map_some]
  · rw [Function.update_of_ne outro, Function.update_of_ne outro]
    cases known : estado.dic h' with
    | none => rfl
    | some u =>
        have inside := (List.getElem?_eq_some_iff.mp ((indexes h' u).mp known)).1
        rw [Option.bind_some, Option.bind_some, List.getElem?_append_left (by omega)]

theorem Concordam.arquivo (iguais : Concordam inteiro estado) (i : Nat) (dados : Bytes) :
    Concordam (inteiro.arquivo F ver i dados)
      (estado.chunk F.inteira ver i dados (0, dados.length)) := by
  cases known : estado.dic (F.blake2b dados) with
  | none =>
      have novo : estado.dic ((ocorrencia i dados (0, dados.length)).chave F.inteira) = none := by
        rw [chave_inteira, known]
      have falta : inteiro.dic (F.blake2b dados) = none := by
        rw [iguais.dic, known, Option.bind_none]
      rw [chunk_novo novo, chave_inteira, bytes_inteira, Inteiro.arquivo]
      dsimp only
      rw [falta]
      refine ⟨?_, ?_, fun h => ?_, fun h => ?_, ?_⟩
      · show Indexes (Function.update estado.dic _ (some estado.unicos.length)) _
        rw [← iguais.tamanho]
        exact iguais.ordem.concat known
      · show (inteiro.ordem ++ [_]).length = (estado.unicos ++ [_]).length
        rw [List.length_append, List.length_append, iguais.tamanho]
        rfl
      · refine Eq.trans ?_ (busca_novo iguais.ordem iguais.tamanho _ _ known h).symm
        show Function.update inteiro.dic _ _ h = _
        rw [funext iguais.dic]
      · refine Eq.trans ?_ (busca_novo iguais.ordem iguais.tamanho _ _ known h).symm
        show Function.update inteiro.c3PorHash _ _ h = _
        rw [funext iguais.c3]
        rfl
      · show (inteiro.codecOk && _) = (estado.codecOk && _ && _)
        rw [iguais.codecOk]
        simp [amostrado, Ferramentas.inteira]
  | some u =>
      have visto : estado.dic ((ocorrencia i dados (0, dados.length)).chave F.inteira) =
          some u := by
        rw [chave_inteira, known]
      have inside := (List.getElem?_eq_some_iff.mp ((iguais.ordem _ u).mp known)).1
      have presente : inteiro.dic (F.blake2b dados) =
          (estado.unicos[u]?).map fun x => (x.ver, x.obj, x.tam) := by
        rw [iguais.dic, known, Option.bind_some]
      rw [List.getElem?_eq_getElem (iguais.tamanho ▸ inside), Option.map_some] at presente
      rw [chunk_repetido visto, Inteiro.arquivo]
      dsimp only
      rw [presente]
      cases ver <;> exact ⟨iguais.ordem, iguais.tamanho, iguais.dic, iguais.c3, iguais.codecOk⟩

theorem Concordam.versao {i : Nat} {fs : List Arquivo} (iguais : Concordam inteiro estado) :
    ∃ depois, Varredura.versao F.inteira ver i fs estado = some depois ∧
      Concordam (inteiro.versao F ver i fs) depois := by
  induction fs generalizing i inteiro estado with
  | nil => exact ⟨estado, rfl, iguais⟩
  | cons f fs ih =>
      have antes : Concordam inteiro
          { estado with
            ini := Function.update estado.ini ver (estado.ini ver ++ [(estado.recs ver).length])
            nChunks := Function.update estado.nChunks ver (estado.nChunks ver + 1) } :=
        ⟨iguais.ordem, iguais.tamanho, iguais.dic, iguais.c3, iguais.codecOk⟩
      exact ih (i := i + 1) (antes.arquivo i f.dados)

theorem todos_versao (i : Nat) (fs : List Arquivo) (inteiro : Inteiro) (ver : Versao) :
    (inteiro.versao F ver i fs).todos =
      Function.update inteiro.todos ver
        (inteiro.todos ver ++ fs.map fun f => F.blake2b f.dados) := by
  induction fs generalizing i inteiro with
  | nil =>
      rw [List.map_nil, List.append_nil, Function.update_eq_self]
      rfl
  | cons f fs ih =>
      have um : (inteiro.arquivo F ver i f.dados).todos =
          Function.update inteiro.todos ver (inteiro.todos ver ++ [F.blake2b f.dados]) := by
        rw [Inteiro.arquivo]
        dsimp only
        split <;> rfl
      rw [Inteiro.versao, ih, um, Function.update_self, Function.update_idem, List.append_assoc,
        List.map_cons, List.singleton_append]

theorem todos_lidos (F : Ferramentas) (fontes : Fontes) (ver : Versao) :
    (lerInteiros F fontes).todos ver = (fontes ver).map fun f => F.blake2b f.dados := by
  rw [lerInteiros, todos_versao, todos_versao]
  cases ver <;> rfl

/-! ## The counts -/

theorem Concordam.soma (iguais : Concordam inteiro estado) {g : Unico → Nat} {valor : Bytes → Nat}
    (dele : ∀ h, valor h =
      ((estado.dic h).bind fun u => (estado.unicos[u]?).map g).getD 0) :
    (inteiro.ordem.map valor).sum = somaUnicos estado.unicos g := by
  have mesmos : inteiro.ordem.map valor = estado.unicos.map g := by
    apply List.ext_getElem?
    intro u
    rw [List.getElem?_map, List.getElem?_map]
    by_cases inside : u < inteiro.ordem.length
    · have there := List.getElem?_eq_getElem inside
      have known := (iguais.ordem _ u).mpr there
      rw [there, List.getElem?_eq_getElem (iguais.tamanho ▸ inside), Option.map_some,
        Option.map_some, dele, known, Option.bind_some,
        List.getElem?_eq_getElem (iguais.tamanho ▸ inside)]
      rfl
    · rw [List.getElem?_eq_none (by omega),
        List.getElem?_eq_none (by rw [← iguais.tamanho]; omega)]
      rfl
  rw [mesmos, somaUnicos]

theorem somaVistos_eq {jaVisto seen : List Bytes} (mesmos : ∀ h, h ∈ jaVisto ↔ h ∈ seen)
    (xs : List Bytes) :
    somaVistos jaVisto (xs.map fun x => (F.blake2b x, x.length)) =
      ((repeats F.blake2b seen xs).map List.length).sum := by
  induction xs generalizing jaVisto seen with
  | nil => rfl
  | cons x xs ih =>
      rw [List.map_cons, somaVistos, repeats]
      dsimp only
      by_cases visto : F.blake2b x ∈ seen
      · have depois : ∀ h, h ∈ jaVisto ++ [F.blake2b x] ↔ h ∈ seen := by
          intro h
          rw [List.mem_append, List.mem_singleton, mesmos]
          exact or_iff_left_of_imp fun same => same ▸ visto
        have contido := List.contains_iff_mem.mpr ((mesmos _).mpr visto)
        rw [if_pos contido, if_pos visto, ih depois, List.map_cons, List.sum_cons]
      · have depois : ∀ h, h ∈ jaVisto ++ [F.blake2b x] ↔ h ∈ seen ++ [F.blake2b x] := by
          intro h
          rw [List.mem_append, List.mem_append, mesmos]
        have fora : ¬ jaVisto.contains (F.blake2b x) = true := fun antes =>
          visto ((mesmos _).mp (List.contains_iff_mem.mp antes))
        rw [if_neg fora, if_neg visto, ih depois, Nat.zero_add]

theorem pedacos_inteira (F : Ferramentas) (fontes : Fontes) (ver : Versao) :
    pedacos F.inteira fontes ver = (fontes ver).map Arquivo.dados := by
  rw [pedacos]
  induction fontes ver with
  | nil => rfl
  | cons f fs ih =>
      rw [List.flatMap_cons, ih, List.map_cons]
      show [(f.dados.drop 0).take f.dados.length] ++ _ = _
      rw [List.drop_zero, List.take_length, List.singleton_append]

theorem cortaTudo_inteira (F : Ferramentas) : CortaTudo F.inteira := by
  intro dados cortes cortado
  cases cortado
  refine Tiles.cons _ ?_
  rw [Nat.zero_add]
  exact Tiles.nil _

/-- The hash of a file came in the first version, as the hash of some chunk there did. -/
theorem vista_iff {partes : Versao → List (List Ocorrencia)} {fontes : Fontes}
    (cortados : ∀ ver, partesDe F.inteira 0 (fontes ver) = some (partes ver)) (h : Bytes) :
    h ∈ (lerInteiros F fontes).todos .v1 ↔
      h ∈ chavesV1 F.inteira fun ver => (partes ver).flatten := by
  have known := @mem_known _ _ _ _ F.inteira.blake2b [] (pedacos F.inteira fontes .v1) h
  rw [List.nil_append] at known
  rw [chavesV1_eq, Lido.bytes_de cortados, known, todos_lidos, pedacos_inteira]
  simp only [List.not_mem_nil, false_or, List.mem_map, exists_exists_and_eq_and]
  rfl

theorem Lido.antigos_inteira {partes : Versao → List (List Ocorrencia)} {fontes : Fontes}
    (lido : Lido F.inteira partes estado)
    (cortados : ∀ ver, partesDe F.inteira 0 (fontes ver) = some (partes ver)) :
    estado.vsV1 = (((pedacos F.inteira fontes .v2).filter fun x =>
      ((lerInteiros F fontes).todos .v1).contains (F.blake2b x)).map List.length).sum := by
  have deles : ∀ oc ∈ antigos F.inteira fun ver => (partes ver).flatten,
      oc.tam = oc.bytes.length := fun oc member =>
    tam_de (cortaTudo_inteira F) (cortados .v2) oc (List.mem_filter.mp member).1
  have mesmos : ∀ oc ∈ (partes .v2).flatten,
      decide (oc.chave F.inteira ∈ chavesV1 F.inteira fun ver => (partes ver).flatten) =
        ((lerInteiros F fontes).todos .v1).contains (F.blake2b oc.bytes) := by
    intro oc _
    rw [Bool.eq_iff_iff, decide_eq_true_iff, List.contains_iff_mem]
    exact (vista_iff cortados (F.blake2b oc.bytes)).symm
  rw [lido.resume.vs, somaOc_bytes deles, antigos, List.filter_congr mesmos,
    ← Lido.bytes_de cortados .v2, List.filter_map, List.map_map]
  rfl

theorem Lido.duplicados_inteira {partes : Versao → List (List Ocorrencia)} {fontes : Fontes}
    (lido : Lido F.inteira partes estado)
    (cortados : ∀ ver, partesDe F.inteira 0 (fontes ver) = some (partes ver)) :
    estado.dupTotal = somaVistos ((lerInteiros F fontes).todos .v1)
      ((pedacos F.inteira fontes .v2).map fun x => (F.blake2b x, x.length)) := by
  have repetidos : ∀ oc ∈ duplicados F.inteira fun ver => (partes ver).flatten,
      oc.tam = oc.bytes.length := fun oc member =>
    tam_de (cortaTudo_inteira F) (cortados .v2) oc (repeats_sublist.mem member)
  have bytes : (duplicados F.inteira fun ver => (partes ver).flatten).map Ocorrencia.bytes =
      repeats F.blake2b (chavesV1 F.inteira fun ver => (partes ver).flatten)
        ((partes .v2).flatten.map Ocorrencia.bytes) :=
    repeats_map Ocorrencia.bytes (partes .v2).flatten
  rw [lido.resume.dup, somaOc_bytes repetidos, somaVistos_eq (vista_iff cortados),
    ← Lido.bytes_de cortados .v2, ← bytes, List.map_map]
  rfl

/-- The dictionary of whole files and the scan whose chunks are the files count the same. -/
theorem inteiro_concorda (F : Ferramentas) (fontes : Fontes) :
    ∃ estado, varrerChunks F.inteira fontes = some estado ∧
      (lerInteiros F fontes).relatorio fontes =
        { nUnicos := estado.unicos.length
          bytesUnicos := somaUnicos estado.unicos Unico.tam
          bytesV2JaEmV1 := estado.vsV1
          bytesV2Duplicados := estado.dupTotal
          armazenadoZ3ComDedup := somaUnicos estado.unicos Unico.c3
          codecOk := estado.codecOk } := by
  have corta : ∀ dados, ∃ cortes, F.inteira.cortar dados = some cortes := fun dados => ⟨_, rfl⟩
  obtain ⟨primeira, um⟩ := partes_existem corta 0 (fontes .v1)
  obtain ⟨segunda, dois⟩ := partes_existem corta 0 (fontes .v2)
  have cortados : ∀ ver : Versao, partesDe F.inteira 0 (fontes ver) =
      some (Function.update (fun _ => primeira) .v2 segunda ver) := by
    intro ver
    cases ver
    · exact um
    · exact dois
  obtain ⟨estado, varrido, lido⟩ := lido_de_partes cortados
  obtain ⟨meio, lidoUm, iguaisUm⟩ :=
    @Concordam.versao F _ _ .v1 0 (fontes .v1) concordam_inicial
  obtain ⟨depois, lidoDois, iguais⟩ := @Concordam.versao F _ _ .v2 0 (fontes .v2) iguaisUm
  obtain rfl : depois = estado := by
    rw [varrerChunks, lidoUm, Option.bind_some, lidoDois] at varrido
    exact Option.some.inj varrido
  refine ⟨depois, varrido, ?_⟩
  have segundos : ((lerInteiros F fontes).todos .v2).zip
      ((fontes .v2).map fun f => f.dados.length) =
      (pedacos F.inteira fontes .v2).map fun x => (F.blake2b x, x.length) := by
    rw [todos_lidos, List.zip_map', pedacos_inteira, List.map_map]
    rfl
  have deAntes : ((((pedacos F.inteira fontes .v2).map fun x => (F.blake2b x, x.length)).filter
      fun item => ((lerInteiros F fontes).todos .v1).contains item.1).map Prod.snd).sum =
        depois.vsV1 := by
    rw [lido.antigos_inteira cortados, List.filter_map, List.map_map]
    rfl
  have tamanhos := @Concordam.soma _ _ iguais Unico.tam
    (fun h => (((lerInteiros F fontes).dic h).map fun v => v.2.2).getD 0) fun h => by
      show ((Option.map _ ((lerInteiros F fontes).dic h)).getD 0) = _
      rw [show (lerInteiros F fontes).dic h = _ from iguais.dic h, Option.map_bind]
      simp only [Function.comp_def, Option.map_map]
  have comprimidos := @Concordam.soma _ _ iguais Unico.c3
    (fun h => ((lerInteiros F fontes).c3PorHash h).getD 0) fun h => congrArg (Option.getD · 0)
      (iguais.c3 h)
  rw [Inteiro.relatorio, segundos, deAntes, ← lido.duplicados_inteira cortados]
  exact RelatorioInteiro.mk.injEq .. |>.mpr
    ⟨iguais.tamanho, tamanhos, rfl, rfl, comprimidos, iguais.codecOk⟩

theorem inteiro_concorda_dois :
    ∃ estado, varrerChunks deDois.inteira duasVersoes = some estado ∧
      estado.unicos.length = 4 ∧ estado.vsV1 = 2 ∧ estado.dupTotal = 2 := by
  obtain ⟨estado, varrido, concorda⟩ := inteiro_concorda deDois duasVersoes
  refine ⟨estado, varrido, ?_, ?_, ?_⟩
  · exact (congrArg RelatorioInteiro.nUnicos concorda).symm.trans (by decide)
  · exact (congrArg RelatorioInteiro.bytesV2JaEmV1 concorda).symm.trans (by decide)
  · exact (congrArg RelatorioInteiro.bytesV2Duplicados concorda).symm.trans (by decide)

end Bench

end Syntra
