/-
Runs in which every request is dispatched by one method.

`algoritmoBalanceo` is read once by each request, with no mutex held, and can be changed from
the console at any time. A run is dispatched by one method when every request reads that one;
nobody is then ever on the way through another ([`Fase.enMetodo`]).
-/
import LoadBalancer.Hilos

set_option autoImplicit false

namespace LoadBalancer

/-- The step reads `algoritmoBalanceo`. -/
def Fase.leeMetodo : Fase → Bool
  | .elegirMetodo => true
  | _ => false

/-- The step is `carga_actual++`. -/
def Fase.porContar : Fase → Bool
  | .cargar _ => true
  | _ => false

/-- A request that reads `algoritmoBalanceo` in this step reads `metodo`. -/
def Despacho (metodo : Algoritmo) (s : Estado) : Accion → Prop
  | .hilo h => (s.hilos[h]?.any fun t => t.fase.leeMetodo) = true →
      s.balanceador.algoritmoBalanceo = metodo
  | _ => True

instance (metodo : Algoritmo) : ∀ s a, Decidable (Despacho metodo s a)
  | _, .hilo _ => inferInstanceAs (Decidable (_ → _))
  | _, .llegada _ => isTrue trivial
  | _, .metodo _ => isTrue trivial
  | _, .registro _ => isTrue trivial
  | _, .alta _ _ => isTrue trivial
  | _, .baja _ => isTrue trivial
  | _, .borrado => isTrue trivial

/-- The points of `hilo_Cliente` on the way through `metodo`. -/
def Fase.enMetodo (metodo : Algoritmo) : Fase → Prop
  | .elegir m => m = metodo
  | .agregarCliente => metodo = .DIRECCION_CLIENTE
  | .asociarServidor => metodo = .DIRECCION_CLIENTE
  | .guardarCliente _ => metodo = .DIRECCION_CLIENTE
  | .escaneando => metodo = .ROUND_ROBIN_PESOS
  | _ => True

/-- Every request of the state is on the way through `metodo`, or at a point that all have. -/
def EnMetodo (metodo : Algoritmo) (s : Estado) : Prop := ∀ t ∈ s.hilos, t.fase.enMetodo metodo

theorem Transita.enMetodo {metodo : Algoritmo} {b b' : Balanceador} {p : Peticion} {f f' : Fase}
    (ht : Transita b p f b' f') (hf : f.enMetodo metodo)
    (hok : f = .elegirMetodo → b.algoritmoBalanceo = metodo) : f'.enMetodo metodo := by
  cases ht with
  | metodo => exact hok rfl
  | clienteNuevo h => exact hf.symm
  | sinRegistro h => exact hf
  | asociado random h hi => exact hf
  | pesosSinFin i h => exact hf.symm
  | escaneo => exact hf
  | _ => trivial

theorem EnMetodo.paso {metodo : Algoritmo} {s s' : Estado} {a : Accion} (hinv : EnMetodo metodo s)
    (hok : Despacho metodo s a) (h : LoadBalancer.paso s a = some s') : EnMetodo metodo s' := by
  cases paso_avanza h with
  | llegada p => exact forall_hilos_append hinv trivial
  | hilo h' hh b f hlibre ht =>
      apply forall_hilos_set hinv
      apply ht.enMetodo (hinv _ (List.getElem_mem hh))
      intro hfase
      apply hok
      rw [List.getElem?_eq_getElem hh, Option.any_some, hfase]
      rfl
  | _ => exact hinv

theorem enMetodo_conServidores (metodo : Algoritmo) (tabla : List ServidorRegistrado) :
    EnMetodo metodo (.conServidores tabla) := by
  intro t ht
  cases ht

end LoadBalancer
