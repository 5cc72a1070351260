import Syntra.Bench.Dedup

/-!
# What the scan knows

After each chunk the index, the unique chunks and the counters are those of the chunks seen:
the first ones of each hash, and the others.
-/

set_option autoImplicit false

namespace Syntra

namespace Bench

open Interned Tiling

variable (F : Ferramentas)

structure Ocorrencia where
  obj : Nat
  off : Nat
  tam : Nat
  bytes : Bytes

def Ocorrencia.chave (oc : Ocorrencia) : Bytes := F.blake2b oc.bytes

def ocorrencia (i : Nat) (dados : Bytes) (corte : Nat × Nat) : Ocorrencia :=
  { obj := i, off := corte.1, tam := corte.2, bytes := (dados.drop corte.1).take corte.2 }

def Ocorrencia.unico (ver : Versao) (oc : Ocorrencia) : Unico :=
  { ver
    obj := oc.obj
    off := oc.off
    tam := oc.tam
    c3 := (F.comprimir 3 oc.bytes).length
    c19 := if amostrado F (oc.chave F) then some (F.comprimir 19 oc.bytes).length else none }

/-- The chunks with a new hash of the first version, and those of the second. -/
def novosV1 (vistos : Versao → List Ocorrencia) : List Ocorrencia :=
  firsts (Ocorrencia.chave F) [] (vistos .v1)

def chavesV1 (vistos : Versao → List Ocorrencia) : List Bytes :=
  (novosV1 F vistos).map (Ocorrencia.chave F)

def novosV2 (vistos : Versao → List Ocorrencia) : List Ocorrencia :=
  firsts (Ocorrencia.chave F) (chavesV1 F vistos) (vistos .v2)

def chaves (vistos : Versao → List Ocorrencia) : List Bytes :=
  chavesV1 F vistos ++ (novosV2 F vistos).map (Ocorrencia.chave F)

/-- What the arrays of the unique chunks hold. -/
def unicosDe (vistos : Versao → List Ocorrencia) : List Unico :=
  (novosV1 F vistos).map (Ocorrencia.unico F .v1) ++
    (novosV2 F vistos).map (Ocorrencia.unico F .v2)

def duplicados (vistos : Versao → List Ocorrencia) : List Ocorrencia :=
  repeats (Ocorrencia.chave F) (chavesV1 F vistos) (vistos .v2)

def antigos (vistos : Versao → List Ocorrencia) : List Ocorrencia :=
  (vistos .v2).filter fun oc => oc.chave F ∈ chavesV1 F vistos

def somaOc (ocs : List Ocorrencia) : Nat := (ocs.map Ocorrencia.tam).sum

def Ferramentas.Lossless : Prop := ∀ nivel x, F.descomprimir (F.comprimir nivel x) = x

structure Resume (vistos : Versao → List Ocorrencia) (estado : Varredura) : Prop where
  unicos : estado.unicos = unicosDe F vistos
  dic : Indexes estado.dic (chaves F vistos)
  recs : ∀ ver, List.Forall₂ (fun u oc => (chaves F vistos)[u]? = some (oc.chave F))
    (estado.recs ver) (vistos ver)
  dup : estado.dupTotal = somaOc (duplicados F vistos)
  vs : estado.vsV1 = somaOc (antigos F vistos)
  codec : F.Lossless → estado.codecOk = true

theorem resume_inicial : Resume F (fun _ => []) Varredura.inicial where
  unicos := rfl
  dic := Indexes.nil
  recs _ := List.Forall₂.nil
  dup := rfl
  vs := rfl
  codec _ := rfl

variable {F} {vistos : Versao → List Ocorrencia} {estado : Varredura}

theorem chaves_eq (vistos : Versao → List Ocorrencia) :
    chaves F vistos = (firsts (Ocorrencia.chave F) [] (vistos .v1 ++ vistos .v2)).map
      (Ocorrencia.chave F) := by
  rw [chaves, novosV2, chavesV1, novosV1, firsts_append, List.nil_append, List.map_append]

theorem Resume.length (resume : Resume F vistos estado) :
    estado.unicos.length = (chaves F vistos).length := by
  rw [resume.unicos, unicosDe, chaves, chavesV1]
  simp

/-- Under a known hash stands the first chunk that had it, with the version where it came. -/
theorem unico_de_chave {u : Nat} {h : Bytes} (here : (chaves F vistos)[u]? = some h) :
    ∃ ver oc, oc ∈ vistos ver ∧ oc.chave F = h ∧
      (unicosDe F vistos)[u]? = some (oc.unico F ver) ∧ (ver = .v1 ↔ h ∈ chavesV1 F vistos) := by
  have sizes : ((novosV1 F vistos).map (Ocorrencia.unico F .v1)).length =
      (chavesV1 F vistos).length := by rw [chavesV1, List.length_map, List.length_map]
  rw [chaves] at here
  rw [unicosDe]
  by_cases early : u < (chavesV1 F vistos).length
  · rw [List.getElem?_append_left early] at here
    have known := List.mem_of_getElem? here
    rw [chavesV1, List.getElem?_map] at here
    obtain ⟨oc, there, same⟩ := Option.map_eq_some_iff.mp here
    refine ⟨.v1, oc, firsts_sublist.mem (List.mem_of_getElem? there), same, ?_,
      iff_of_true rfl known⟩
    rw [List.getElem?_append_left (sizes ▸ early), List.getElem?_map, there]
    rfl
  · have late := Nat.le_of_not_lt early
    rw [List.getElem?_append_right late, List.getElem?_map] at here
    obtain ⟨oc, there, rfl⟩ := Option.map_eq_some_iff.mp here
    have new := List.mem_of_getElem? there
    refine ⟨.v2, oc, firsts_sublist.mem new, rfl, ?_,
      iff_of_false (fun other => nomatch other) (firsts_new oc new)⟩
    rw [List.getElem?_append_right (sizes ▸ late), sizes, List.getElem?_map, there]
    rfl

/-- The version of a unique chunk tells whether its hash came in the first one. -/
theorem Resume.versao (resume : Resume F vistos estado) {u : Nat} {h : Bytes}
    (here : (chaves F vistos)[u]? = some h) :
    ((estado.unicos[u]?).any fun x => decide (x.ver = .v1)) = decide (h ∈ chavesV1 F vistos) := by
  obtain ⟨ver, oc, -, -, there, first⟩ := unico_de_chave here
  rw [resume.unicos, there, Option.any_some, decide_eq_decide]
  exact first

/-! ## One chunk more -/

/-- Nothing of the second version is seen before all of the first one. -/
def Ordem (vistos : Versao → List Ocorrencia) (ver : Versao) : Prop := ver = .v1 → vistos .v2 = []

def mais (vistos : Versao → List Ocorrencia) (ver : Versao) (oc : Ocorrencia) :
    Versao → List Ocorrencia :=
  Function.update vistos ver (vistos ver ++ [oc])

variable {ver : Versao} {oc : Ocorrencia}

theorem mais_self : mais vistos ver oc ver = vistos ver ++ [oc] := Function.update_self ..

theorem mais_v1_v2 : mais vistos .v1 oc .v2 = vistos .v2 := rfl

theorem mais_v2_v1 : mais vistos .v2 oc .v1 = vistos .v1 := rfl

theorem novosV2_vazio (vazio : vistos .v2 = []) : novosV2 F vistos = [] := by
  rw [novosV2, vazio, firsts]

theorem novosV1_mais :
    novosV1 F (mais vistos .v1 oc) =
      if oc.chave F ∈ chavesV1 F vistos then novosV1 F vistos else novosV1 F vistos ++ [oc] := by
  rw [novosV1, mais_self, firsts_concat, List.nil_append]
  rfl

theorem novosV2_mais :
    novosV2 F (mais vistos .v2 oc) =
      if oc.chave F ∈ chaves F vistos then novosV2 F vistos else novosV2 F vistos ++ [oc] := by
  rw [novosV2, mais_self, firsts_concat]
  rfl

theorem chaves_mais (ordem : Ordem vistos ver) :
    chaves F (mais vistos ver oc) =
      if oc.chave F ∈ chaves F vistos then chaves F vistos
      else chaves F vistos ++ [oc.chave F] := by
  have juntos : mais vistos ver oc .v1 ++ mais vistos ver oc .v2 =
      vistos .v1 ++ vistos .v2 ++ [oc] := by
    cases ver with
    | v1 =>
        rw [mais_self, mais_v1_v2, ordem rfl]
        simp
    | v2 => rw [mais_self, mais_v2_v1, List.append_assoc]
  rw [chaves_eq, juntos, firsts_concat, List.nil_append, ← chaves_eq]
  split
  · rw [← chaves_eq]
  · rw [List.map_append, ← chaves_eq, List.map_singleton]

theorem unicosDe_mais (ordem : Ordem vistos ver) :
    unicosDe F (mais vistos ver oc) =
      if oc.chave F ∈ chaves F vistos then unicosDe F vistos
      else unicosDe F vistos ++ [oc.unico F ver] := by
  cases ver with
  | v1 =>
      have vazio := ordem rfl
      have mesmas : chaves F vistos = chavesV1 F vistos := by
        rw [chaves, novosV2_vazio vazio, List.map_nil, List.append_nil]
      rw [unicosDe, unicosDe, novosV1_mais, novosV2_vazio vazio, novosV2_vazio (by exact vazio),
        mesmas]
      split <;> simp
  | v2 =>
      have mesmos : novosV1 F (mais vistos .v2 oc) = novosV1 F vistos := rfl
      rw [unicosDe, unicosDe, novosV2_mais, mesmos]
      split <;> simp

theorem duplicados_mais (ordem : Ordem vistos ver) :
    duplicados F (mais vistos ver oc) =
      if ver = .v2 ∧ oc.chave F ∈ chaves F vistos then duplicados F vistos ++ [oc]
      else duplicados F vistos := by
  cases ver with
  | v1 =>
      have vazio := ordem rfl
      rw [duplicados, duplicados, mais_v1_v2, vazio, repeats, repeats]
      simp
  | v2 =>
      rw [duplicados, mais_self, repeats_concat]
      simp only [true_and]
      rfl

theorem antigos_mais (ordem : Ordem vistos ver) :
    antigos F (mais vistos ver oc) =
      if ver = .v2 ∧ oc.chave F ∈ chavesV1 F vistos then antigos F vistos ++ [oc]
      else antigos F vistos := by
  cases ver with
  | v1 =>
      have vazio := ordem rfl
      rw [antigos, antigos, mais_v1_v2, vazio]
      simp
  | v2 =>
      have mesmas : chavesV1 F (mais vistos .v2 oc) = chavesV1 F vistos := rfl
      rw [antigos, mais_self, mesmas, List.filter_append]
      by_cases antiga : oc.chave F ∈ chavesV1 F vistos <;> simp [antigos, antiga]

theorem somaOc_concat (ocs : List Ocorrencia) (oc : Ocorrencia) :
    somaOc (ocs ++ [oc]) = somaOc ocs + oc.tam := by
  simp [somaOc]

variable {i u : Nat} {dados : Bytes} {corte : Nat × Nat}

theorem chunk_novo (novo : estado.dic ((ocorrencia i dados corte).chave F) = none) :
    estado.chunk F ver i dados corte =
      { estado.novo F ver i corte.1 corte.2 (ocorrencia i dados corte).bytes
          ((ocorrencia i dados corte).chave F) with
        recs := Function.update estado.recs ver
          (estado.recs ver ++ [estado.unicos.length]) } := by
  have ausente : estado.dic (F.blake2b ((dados.drop corte.1).take corte.2)) = none := novo
  rw [Varredura.chunk]
  dsimp only
  rw [ausente]
  rfl

theorem chunk_repetido (visto : estado.dic ((ocorrencia i dados corte).chave F) = some u) :
    estado.chunk F ver i dados corte =
      { estado.repetido ver corte.2 u with
        recs := Function.update estado.recs ver (estado.recs ver ++ [u]) } := by
  have presente : estado.dic (F.blake2b ((dados.drop corte.1).take corte.2)) = some u := visto
  rw [Varredura.chunk]
  dsimp only
  rw [presente]
  cases ver <;> rfl

theorem recs_mais (ordem : Ordem vistos ver)
    (recs : ∀ ver, List.Forall₂ (fun u oc => (chaves F vistos)[u]? = some (oc.chave F))
      (estado.recs ver) (vistos ver))
    (aqui : (chaves F (mais vistos ver oc))[u]? = some (oc.chave F)) (ver' : Versao) :
    List.Forall₂ (fun u oc' => (chaves F (mais vistos ver oc))[u]? = some (oc'.chave F))
      (Function.update estado.recs ver (estado.recs ver ++ [u]) ver')
      (mais vistos ver oc ver') := by
  have mantidas : ∀ {u : Nat} {h : Bytes}, (chaves F vistos)[u]? = some h →
      (chaves F (mais vistos ver oc))[u]? = some h := by
    intro u h there
    rw [chaves_mais ordem]
    split
    · exact there
    · rw [List.getElem?_append_left (List.getElem?_eq_some_iff.mp there).1]
      exact there
  have antes := fun ver => (recs ver).imp fun _ _ there => mantidas there
  rcases eq_or_ne ver' ver with rfl | outra
  · rw [Function.update_self, mais_self]
    exact List.rel_append (antes ver') (List.Forall₂.cons aqui List.Forall₂.nil)
  · rw [Function.update_of_ne outra, mais, Function.update_of_ne outra]
    exact antes ver'

theorem Resume.novo (resume : Resume F vistos estado) (ordem : Ordem vistos ver)
    (novo : estado.dic ((ocorrencia i dados corte).chave F) = none) :
    Resume F (mais vistos ver (ocorrencia i dados corte)) (estado.chunk F ver i dados corte) := by
  have ausente := resume.dic.absent novo
  have depois := @chaves_mais F vistos ver (ocorrencia i dados corte) ordem
  rw [if_neg ausente] at depois
  rw [chunk_novo novo]
  constructor
  · rw [unicosDe_mais ordem, if_neg ausente, ← resume.unicos]
    rfl
  · rw [depois]
    show Indexes (Function.update estado.dic _ (some estado.unicos.length)) _
    rw [resume.length]
    exact resume.dic.concat novo
  · apply recs_mais ordem resume.recs
    rw [depois, resume.length, List.getElem?_concat_length]
  · rw [duplicados_mais ordem, if_neg fun both => ausente both.2]
    exact resume.dup
  · rw [antigos_mais ordem, if_neg fun both => ausente (List.mem_append_left _ both.2)]
    exact resume.vs
  · intro lossless
    have antes := resume.codec lossless
    simp [Varredura.novo, antes, lossless _ _]

theorem Resume.repetido (resume : Resume F vistos estado) (ordem : Ordem vistos ver)
    (visto : estado.dic ((ocorrencia i dados corte).chave F) = some u) :
    Resume F (mais vistos ver (ocorrencia i dados corte)) (estado.chunk F ver i dados corte) := by
  have aqui := (resume.dic _ _).mp visto
  have presente := List.mem_of_getElem? aqui
  have depois := @chaves_mais F vistos ver (ocorrencia i dados corte) ordem
  rw [if_pos presente] at depois
  have posto : ∀ ver', List.Forall₂ (fun u oc' =>
      (chaves F (mais vistos ver (ocorrencia i dados corte)))[u]? = some (oc'.chave F))
      (Function.update estado.recs ver (estado.recs ver ++ [u]) ver')
      (mais vistos ver (ocorrencia i dados corte) ver') := by
    apply recs_mais ordem resume.recs
    rw [depois]
    exact aqui
  have iguais := @unicosDe_mais F vistos ver (ocorrencia i dados corte) ordem
  rw [if_pos presente, ← resume.unicos] at iguais
  rw [chunk_repetido visto]
  cases ver with
  | v1 =>
      refine ⟨iguais.symm, ?_, posto, ?_, ?_, resume.codec⟩
      · rw [depois]
        exact resume.dic
      · rw [duplicados_mais ordem, if_neg fun both => nomatch both.1]
        exact resume.dup
      · rw [antigos_mais ordem, if_neg fun both => nomatch both.1]
        exact resume.vs
  | v2 =>
      refine ⟨iguais.symm, ?_, posto, ?_, ?_, resume.codec⟩
      · rw [depois]
        exact resume.dic
      · rw [duplicados_mais ordem, if_pos ⟨rfl, presente⟩, somaOc_concat, ← resume.dup]
        rfl
      · rw [antigos_mais ordem]
        show (if _ then estado.vsV1 + corte.2 else estado.vsV1) = _
        rw [resume.versao aqui]
        by_cases antiga : (ocorrencia i dados corte).chave F ∈ chavesV1 F vistos
        · rw [if_pos (decide_eq_true antiga), if_pos ⟨rfl, antiga⟩, somaOc_concat, ← resume.vs]
          rfl
        · rw [if_neg (by simpa using antiga), if_neg fun both => antiga both.2]
          exact resume.vs

theorem Resume.chunk (resume : Resume F vistos estado) (ordem : Ordem vistos ver) (i : Nat)
    (dados : Bytes) (corte : Nat × Nat) :
    Resume F (mais vistos ver (ocorrencia i dados corte)) (estado.chunk F ver i dados corte) := by
  cases known : estado.dic ((ocorrencia i dados corte).chave F) with
  | none => exact resume.novo ordem known
  | some u => exact resume.repetido ordem known

/-! ## One file more -/

theorem chunk_posicoes (estado : Varredura) (ver : Versao) (i : Nat) (dados : Bytes)
    (corte : Nat × Nat) :
    (estado.chunk F ver i dados corte).ini = estado.ini ∧
      (estado.chunk F ver i dados corte).nChunks = estado.nChunks := by
  cases known : estado.dic ((ocorrencia i dados corte).chave F) with
  | none =>
      rw [chunk_novo known]
      exact ⟨rfl, rfl⟩
  | some u =>
      rw [chunk_repetido known]
      cases ver <;> exact ⟨rfl, rfl⟩

theorem cortes_posicoes (cortes : List (Nat × Nat)) (estado : Varredura) (ver : Versao) (i : Nat)
    (dados : Bytes) :
    (cortes.foldl (Varredura.chunk F ver i dados) estado).ini = estado.ini ∧
      (cortes.foldl (Varredura.chunk F ver i dados) estado).nChunks = estado.nChunks := by
  induction cortes generalizing estado with
  | nil => exact ⟨rfl, rfl⟩
  | cons corte cortes ih =>
      obtain ⟨ini, nChunks⟩ := ih (estado.chunk F ver i dados corte)
      obtain ⟨ini', nChunks'⟩ := @chunk_posicoes F estado ver i dados corte
      rw [List.foldl_cons]
      exact ⟨ini.trans ini', nChunks.trans nChunks'⟩

theorem Resume.cortes (resume : Resume F vistos estado) (ordem : Ordem vistos ver) (i : Nat)
    (dados : Bytes) (cortes : List (Nat × Nat)) :
    Resume F (Function.update vistos ver (vistos ver ++ cortes.map (ocorrencia i dados)))
      (cortes.foldl (Varredura.chunk F ver i dados) estado) := by
  induction cortes generalizing vistos estado with
  | nil =>
      rw [List.map_nil, List.append_nil, Function.update_eq_self]
      exact resume
  | cons corte cortes ih =>
      have depois : Ordem (mais vistos ver (ocorrencia i dados corte)) ver := by
        rintro rfl
        exact ordem rfl
      have resto := ih (resume.chunk ordem i dados corte) depois
      rw [mais_self, mais, Function.update_idem, List.append_assoc, List.singleton_append] at resto
      exact resto

def partesDe (F : Ferramentas) : Nat → List Arquivo → Option (List (List Ocorrencia))
  | _, [] => some []
  | i, f :: fs => (F.cortar f.dados).bind fun cortes =>
      (partesDe F (i + 1) fs).map (cortes.map (ocorrencia i f.dados) :: ·)

def inicios (partes : List (List Ocorrencia)) : List Nat :=
  (List.range partes.length).map (offset 0 (partes.map List.length))

theorem inicios_concat (partes : List (List Ocorrencia)) (parte : List Ocorrencia) :
    inicios (partes ++ [parte]) = inicios partes ++ [partes.flatten.length] := by
  have sizes : (partes.map List.length).length = partes.length := List.length_map _
  rw [inicios, inicios, List.length_append, List.length_singleton, List.range_succ,
    List.map_append, List.map_singleton, List.map_append]
  congr 1
  · apply List.map_congr_left
    intro j member
    have inside := List.mem_range.mp member
    rw [offset, offset, List.take_append_of_le_length (by omega)]
  · rw [offset, List.take_append_of_le_length (by omega), List.take_of_length_le (by omega),
      Nat.zero_add, List.length_flatten]

structure Lido (F : Ferramentas) (partes : Versao → List (List Ocorrencia)) (estado : Varredura) :
    Prop where
  resume : Resume F (fun ver => (partes ver).flatten) estado
  ini : ∀ ver, estado.ini ver = inicios (partes ver)
  nChunks : ∀ ver, estado.nChunks ver = (partes ver).flatten.length

theorem lido_inicial : Lido F (fun _ => []) Varredura.inicial where
  resume := resume_inicial F
  ini _ := rfl
  nChunks _ := rfl

variable {partes : Versao → List (List Ocorrencia)} {cortes : List (Nat × Nat)}

theorem Lido.arquivo (lido : Lido F partes estado) (ordem : ver = .v1 → partes .v2 = [])
    (cortado : F.cortar dados = some cortes) :
    ∃ depois, estado.arquivo F ver i dados = some depois ∧
      Lido F (Function.update partes ver (partes ver ++ [cortes.map (ocorrencia i dados)]))
        depois := by
  have juntas : (fun ver' => (Function.update partes ver
      (partes ver ++ [cortes.map (ocorrencia i dados)]) ver').flatten) =
      Function.update (fun ver' => (partes ver').flatten) ver
        ((partes ver).flatten ++ cortes.map (ocorrencia i dados)) := by
    funext ver'
    rcases eq_or_ne ver' ver with rfl | outra
    · simp
    · rw [Function.update_of_ne outra, Function.update_of_ne outra]
  have ordenados : Ordem (fun ver' => (partes ver').flatten) ver := by
    intro primeira
    exact congrArg List.flatten (ordem primeira)
  have lidos := (lido.resume.recs ver).length_eq
  rw [Varredura.arquivo, cortado, Option.map_some]
  refine ⟨_, rfl, ?_, fun ver' => ?_, fun ver' => ?_⟩
  · rw [juntas]
    refine Resume.cortes ?_ ordenados i dados cortes
    exact ⟨lido.resume.unicos, lido.resume.dic, lido.resume.recs, lido.resume.dup, lido.resume.vs,
      lido.resume.codec⟩
  · rw [(cortes_posicoes cortes _ ver i dados).1]
    dsimp only
    rcases eq_or_ne ver' ver with rfl | outra
    · rw [Function.update_self, Function.update_self, inicios_concat, lido.ini, lidos]
    · rw [Function.update_of_ne outra, Function.update_of_ne outra]
      exact lido.ini ver'
  · rw [(cortes_posicoes cortes _ ver i dados).2]
    dsimp only
    rcases eq_or_ne ver' ver with rfl | outra
    · rw [Function.update_self, Function.update_self, lido.nChunks, List.flatten_append,
        List.length_append, List.flatten_singleton, List.length_map]
    · rw [Function.update_of_ne outra, Function.update_of_ne outra]
      exact lido.nChunks ver'

theorem Lido.versao {fs : List Arquivo} {novas : List (List Ocorrencia)}
    (lido : Lido F partes estado) (ordem : ver = .v1 → partes .v2 = [])
    (cortados : partesDe F i fs = some novas) :
    ∃ depois, Varredura.versao F ver i fs estado = some depois ∧
      Lido F (Function.update partes ver (partes ver ++ novas)) depois := by
  induction fs generalizing i novas partes estado with
  | nil =>
      cases cortados
      rw [List.append_nil, Function.update_eq_self]
      exact ⟨estado, rfl, lido⟩
  | cons f fs ih =>
      obtain ⟨cortes, cortado, resto⟩ := Option.bind_eq_some_iff.mp cortados
      obtain ⟨outras, seguintes, rfl⟩ := Option.map_eq_some_iff.mp resto
      obtain ⟨meio, um, lidoUm⟩ := @Lido.arquivo F estado ver i _ _ _ lido ordem cortado
      have ainda : ver = .v1 → Function.update partes ver
          (partes ver ++ [cortes.map (ocorrencia i f.dados)]) .v2 = [] := by
        rintro rfl
        exact ordem rfl
      obtain ⟨depois, todos, lidoTodos⟩ := ih lidoUm ainda seguintes
      refine ⟨depois, ?_, ?_⟩
      · rw [Varredura.versao, um]
        exact todos
      · rwa [Function.update_self, Function.update_idem, List.append_assoc,
          List.singleton_append] at lidoTodos

theorem lido_de_partes {fontes : Fontes}
    (cortados : ∀ ver, partesDe F 0 (fontes ver) = some (partes ver)) :
    ∃ estado, varrerChunks F fontes = some estado ∧ Lido F partes estado := by
  obtain ⟨meio, um, lidoUm⟩ :=
    @Lido.versao F _ .v1 0 _ _ _ lido_inicial (fun _ => rfl) (cortados .v1)
  obtain ⟨estado, dois, lido⟩ :=
    @Lido.versao F _ .v2 0 _ _ _ lidoUm (fun outra => nomatch outra) (cortados .v2)
  refine ⟨estado, ?_, ?_⟩
  · rw [varrerChunks, um]
    exact dois
  · have todas : partes = Function.update
        (Function.update (fun _ => []) Versao.v1 ([] ++ partes .v1)) Versao.v2
        (Function.update (fun _ => []) Versao.v1 ([] ++ partes .v1) .v2 ++ partes .v2) := by
      funext ver
      cases ver <;> rfl
    rw [todas]
    exact lido

end Bench

end Syntra
