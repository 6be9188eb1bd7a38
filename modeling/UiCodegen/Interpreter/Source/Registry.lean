import UiCodegen.Interpreter.Source.Template

/-!
# Registry and context of the interpreter

The part of the C interpreter that keeps named entities, owned memory and context bindings.
-/

namespace UiCodegen.Interpreter.Source

/-- Types of the invocation table, and functions that are defined further down. -/
def invocation : List Bytes := lines "
typedef bool (*invoke_fn_t)(void *target, void *dest, cJSON *args, void *fn);

#define INVOKE_TARGET 0x01u
#define INVOKE_SELECTOR 0x02u
#define INVOKE_WHOLE 0x04u

typedef struct <%
 const char *name;
 invoke_fn_t invoke;
 void *fn;
 uint8_t arity;
 uint8_t flags;
 const char *ret;
%> invoke_entry_t;

typedef struct ui_context_frame <%
 cJSON *values;
 struct ui_context_frame *parent;
%> ui_context_frame_t;

static const invoke_entry_t *find_invoke_entry(const char *name);
static bool unmarshal_value(cJSON *node, const char *expected_c_type, void *dest, void *implicit_parent);
static bool unmarshal_enum_value(cJSON *node, const char *expected_type, int *out);
"

def registry : List Bytes := lines r##"/* Registry */

typedef struct registry_node <%
 char *name;
 char *type;
 void *ptr;
 bool owned;
 struct registry_node *next;
%> registry_node_t;

static registry_node_t *g_registry = NULL;

static registry_node_t *resolve_ref(const char *name, const char *path);

static char *dup_str(const char *s)
<%
 size_t n = strlen(s) + 1;
 char *d = (char *)malloc(n);
 if (d) <%
  memcpy(d, s, n);
 %>
 return d;
%>

/* type_base strips "const " and trailing '*' so "const lv_obj_t *" matches "lv_obj_t". */
static void type_base(const char *type, char *out, size_t size)
<%
 size_t n;
 if (strncmp(type, "const ", 6) == 0) <%
  type += 6;
 %>
 n = strlen(type);
 while (n > 0 && (type[n - 1] == '*' || type[n - 1] == ' ')) <%
  n--;
 %>
 if (n >= size) <%
  n = size - 1;
 %>
 memcpy(out, type, n);
 out[n] = '\0';
%>

static bool type_matches(const char *registered, const char *expected)
<%
 char a[LVGL_JSON_MAX_NAME];
 char b[LVGL_JSON_MAX_NAME];
 if (!registered || !expected || !*expected) <%
  return true;
 %>
 type_base(registered, a, sizeof(a));
 type_base(expected, b, sizeof(b));
 if (strcmp(b, "void") == 0 || strcmp(a, b) == 0) <%
  return true;
 %>
 /* Every widget is an lv_obj_t. */
 return strcmp(b, "lv_obj_t") == 0 && strcmp(a, "lv_style_t") != 0;
%>

/* ret_matches reports whether a call returning ret may fill a slot of type
 * expected. Pointers follow type_matches, values must match by name. */
static bool ret_matches(const char *ret, const char *expected)
<%
 size_t rn, en;
 if (!ret || !expected) <%
  return false;
 %>
 if (strncmp(ret, "const ", 6) == 0) <%
  ret += 6;
 %>
 if (strncmp(expected, "const ", 6) == 0) <%
  expected += 6;
 %>
 if (strcmp(ret, expected) == 0) <%
  return true;
 %>
 rn = strlen(ret);
 en = strlen(expected);
 if (rn > 0 && en > 0 && ret[rn - 1] == '*' && expected[en - 1] == '*') <%
  return type_matches(ret, expected);
 %>
 return false;
%>

static void registry_add(const char *name, const char *type, void *ptr, bool owned)
<%
 registry_node_t *n;
 for (n = g_registry; n; n = n->next) <%
  if (strcmp(n->name, name) == 0) <%
   LVGL_JSON_LOG_WARN("lvgl_json: duplicate registration of '%s', replacing", name);
   if (n->owned) <%
    free(n->ptr);
   %>
   free(n->type);
   n->type = dup_str(type ? type : "");
   n->ptr = ptr;
   n->owned = owned;
   return;
  %>
 %>
 n = (registry_node_t *)malloc(sizeof(*n));
 if (!n) <%
  LVGL_JSON_LOG_ERR("lvgl_json: out of memory registering '%s'", name);
  return;
 %>
 n->name = dup_str(name);
 n->type = dup_str(type ? type : "");
 n->ptr = ptr;
 n->owned = owned;
 n->next = g_registry;
 g_registry = n;
%>

void lvgl_json_register_ptr(const char *name, const char *type, void *ptr)
<%
 if (!name || !*name) <%
  return;
 %>
 registry_add(name, type, ptr, false);
%>

void *lvgl_json_get_registered_ptr(const char *name, const char *type)
<%
 registry_node_t *n;
 if (!name) <%
  return NULL;
 %>
 for (n = g_registry; n; n = n->next) <%
  if (strcmp(n->name, name) == 0) <%
   if (!type_matches(n->type, type)) <%
    LVGL_JSON_LOG_WARN("lvgl_json: '%s' is a %s, not %s", name, n->type, type);
    return NULL;
   %>
   return n->ptr;
  %>
 %>
 return NULL;
%>

/* own_alloc keeps an allocation alive until lvgl_json_clear_registry. */
static unsigned g_alloc_count = 0;

static void *own_alloc(size_t size)
<%
 char key[32];
 void *p = calloc(1, size);
 if (!p) <%
  return NULL;
 %>
 snprintf(key, sizeof(key), "#alloc%u", ++g_alloc_count);
 registry_add(key, "void", p, true);
 return p;
%>

const char *lvgl_json_register_str(const char *text)
<%
 registry_node_t *n;
 char *copy;
 if (!text) <%
  return NULL;
 %>
 for (n = g_registry; n; n = n->next) <%
  if (n->owned && strcmp(n->type, "char") == 0 && strcmp((const char *)n->ptr, text) == 0) <%
   return (const char *)n->ptr;
  %>
 %>
 copy = dup_str(text);
 if (copy) <%
  char key[32];
  snprintf(key, sizeof(key), "#str%u", ++g_alloc_count);
  registry_add(key, "char", copy, true);
 %>
 return copy;
%>

void lvgl_json_clear_registry(void)
<%
 registry_node_t *n = g_registry;
 while (n) <%
  registry_node_t *next = n->next;
  if (n->owned) <%
   free(n->ptr);
  %>
  free(n->name);
  free(n->type);
  free(n);
  n = next;
 %>
 g_registry = NULL;
 g_alloc_count = 0;
%>
"##

def context : List Bytes := lines r#"/* Context */

static ui_context_frame_t *current_ui_context = NULL;

/* current_ui_path is the named path references are resolved under. */
static const char *current_ui_path = "";

/* context_lookup finds name in the innermost binding frame. *scope receives
 * the frame the value must be evaluated in. */
static cJSON *context_lookup(const char *name, ui_context_frame_t **scope)
<%
 ui_context_frame_t *f;
 for (f = current_ui_context; f; f = f->parent) <%
  cJSON *v = f->values ? cJSON_GetObjectItemCaseSensitive(f->values, name) : NULL;
  if (v) <%
   if (scope) <%
    *scope = f->parent;
   %>
   return v;
  %>
 %>
 return NULL;
%>"#

end UiCodegen.Interpreter.Source
